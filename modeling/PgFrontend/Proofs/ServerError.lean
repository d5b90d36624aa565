import Mathlib.Data.List.Induction
import PgFrontend.Fault
import PgFrontend.Proofs.Wire.Runs
/-!
# Reports of errors

An error report is in one way only a run of pairs and a rest that no other pair can be read from.
`parse_eq_ofPairs` says which of the texts in the pairs count; so nothing else in the payload makes a
difference, and the two ways of putting a report into words begin alike.
-/

namespace PgFrontend

open Octets

namespace ErrorFields

/-! ## Pairs -/

def writePair (pair : UInt8 × Octets) : Octets :=
  pair.1 :: (pair.2 ++ [0])

/-- Where a run of pairs ends: with the payload, at a zero code octet, or at a text that does not
end. -/
inductive Ended : Octets → Prop
  | exhausted : Ended []
  | terminated (more : Octets) : Ended (0 :: more)
  | unterminated (code : UInt8) (text : Octets) (hopen : 0 ∉ text) : Ended (code :: text)

/-- A payload is a run of pairs, as long as can be, and a rest. -/
abbrev Divided (payload : Octets) (found : List (UInt8 × Octets)) (rest : Octets) : Prop :=
  Run writePair (fun pair => pair.1 ≠ 0 ∧ 0 ∉ pair.2) Ended payload found rest

theorem Ended.pairs_eq_nil {rest : Octets} (h : Ended rest) : pairs rest = [] := by
  cases h with
  | exhausted => rw [pairs]
  | terminated more => rw [pairs, if_pos rfl]
  | unterminated code text hopen =>
      rw [pairs]
      split
      · rfl
      split
      · rfl
      next hcut =>
        rw [cstring?_eq_none_iff.mpr hopen] at hcut
        cases hcut

theorem pairs_writePair {pair : UInt8 × Octets} (hcode : pair.1 ≠ 0) (htext : 0 ∉ pair.2)
    (s : Octets) : pairs (writePair pair ++ s) = pair :: pairs s := by
  have hcut : cstring? (pair.2 ++ [0] ++ s) = some (pair.2, s) := by
    rw [List.append_assoc]
    exact cstring?_append s htext
  rw [writePair, List.cons_append, pairs, if_neg hcode]
  split
  next hnone =>
    rw [hcut] at hnone
    cases hnone
  next hsome =>
    rw [hcut] at hsome
    cases hsome
    rfl

theorem pairs_readsRun :
    ReadsRun pairs id writePair (fun pair => pair.1 ≠ 0 ∧ 0 ∉ pair.2) Ended :=
  ⟨Ended.pairs_eq_nil, fun hproper => pairs_writePair hproper.1 hproper.2⟩

variable {payload rest : Octets} {found : List (UInt8 × Octets)}

theorem Divided.pairs_eq (h : Divided payload found rest) : pairs payload = found :=
  (h.read_eq pairs_readsRun).trans (List.map_id found)

/-- What is not the end of a run begins with a pair. -/
theorem ended_or_writePair (s : Octets) :
    Ended s ∨ ∃ pair t, (pair.1 ≠ 0 ∧ 0 ∉ pair.2) ∧ s = writePair pair ++ t ∧
      t.length < s.length := by
  cases s with
  | nil => exact .inl .exhausted
  | cons code s =>
      by_cases hcode : code = 0
      · exact .inl (hcode ▸ .terminated s)
      cases hcut : cstring? s with
      | none => exact .inl (.unterminated code s (cstring?_eq_none_iff.mp hcut))
      | some found =>
          obtain ⟨rfl, htext⟩ := cstring?_eq_some hcut
          refine .inr ⟨(code, found.1), found.2, ⟨hcode, htext⟩, by simp [writePair], ?_⟩
          rw [List.length_cons, List.length_append, List.length_cons]
          omega

theorem exists_divided (payload : Octets) : ∃ rest, Divided payload (pairs payload) rest := by
  obtain ⟨found, rest, hdivided⟩ := Run.exists_of_split ended_or_writePair payload
  exact ⟨rest, Divided.pairs_eq hdivided ▸ hdivided⟩

theorem Divided.unique {found' : List (UInt8 × Octets)} {rest' : Octets}
    (h : Divided payload found rest) (h' : Divided payload found' rest') :
    found' = found ∧ rest' = rest := by
  obtain rfl : found' = found := (Divided.pairs_eq h').symm.trans (Divided.pairs_eq h)
  exact ⟨rfl, h.rest_eq h'⟩

/-! ## Texts that count -/

/-- The code of a pair as a letter. -/
def letter (pair : UInt8 × Octets) : Char :=
  Char.ofNat pair.1.toNat

/-- The texts with one letter, in order. -/
def texts (code : Char) (found : List (UInt8 × Octets)) : List String :=
  (found.filter (letter · = code)).map (Utf8.lossy ·.2)

/-- What is told by some pairs: by the last text with each letter, but the first one for a severity
in the server's language, which the other severity goes before. -/
def ofPairs (found : List (UInt8 × Octets)) : ErrorFields where
  severity := (texts 'V' found).getLast? <|> (texts 'S' found).head?
  code := (texts 'C' found).getLast?
  message := (texts 'M' found).getLast?
  detail := (texts 'D' found).getLast?
  hint := (texts 'H' found).getLast?

theorem texts_concat (code : Char) (found : List (UInt8 × Octets)) (pair : UInt8 × Octets) :
    texts code (found ++ [pair]) =
      texts code found ++ if letter pair = code then [Utf8.lossy pair.2] else [] := by
  rw [texts, List.filter_append, List.map_append]
  by_cases hletter : letter pair = code
  · simp [hletter, texts]
  · simp [hletter, texts]

/-- One pair more is recorded. -/
theorem ofPairs_concat (found : List (UInt8 × Octets)) (pair : UInt8 × Octets) :
    ofPairs (found ++ [pair]) = (ofPairs found).record pair := by
  unfold record
  split
  next hletter =>
    have hcode : letter pair = 'V' := hletter
    simp [ofPairs, texts_concat, hcode]
  next hletter =>
    have hcode : letter pair = 'S' := hletter
    simp [ofPairs, texts_concat, hcode]
  next hletter =>
    have hcode : letter pair = 'C' := hletter
    simp [ofPairs, texts_concat, hcode]
  next hletter =>
    have hcode : letter pair = 'M' := hletter
    simp [ofPairs, texts_concat, hcode]
  next hletter =>
    have hcode : letter pair = 'D' := hletter
    simp [ofPairs, texts_concat, hcode]
  next hletter =>
    have hcode : letter pair = 'H' := hletter
    simp [ofPairs, texts_concat, hcode]
  next hV hS hC hM hD hH =>
    have hother (code : Char) (hcode : letter pair ≠ code) :
        texts code (found ++ [pair]) = texts code found := by
      rw [texts_concat, if_neg hcode, List.append_nil]
    rw [ofPairs, hother 'V' hV, hother 'S' hS, hother 'C' hC, hother 'M' hM, hother 'D' hD,
      hother 'H' hH]
    rfl

theorem parse_eq_ofPairs (payload : Octets) : parse payload = ofPairs (pairs payload) := by
  rw [parse]
  generalize pairs payload = found
  induction found using List.reverseRecOn with
  | nil => rfl
  | append_singleton found pair ih =>
      rw [List.foldl_append, ih, ofPairs_concat]
      rfl

theorem ofPairs_congr {found' : List (UInt8 × Octets)}
    (h : ∀ code ∈ ['V', 'S', 'C', 'M', 'D', 'H'], texts code found' = texts code found) :
    ofPairs found' = ofPairs found := by
  simp only [List.forall_mem_cons] at h
  obtain ⟨hV, hS, hC, hM, hD, hH, -⟩ := h
  rw [ofPairs, hV, hS, hC, hM, hD, hH]
  rfl

end ErrorFields

/-! ## Reports in words -/

namespace ServerError

/-- What stands in words after the message. -/
def remainder (e : ServerError) : String :=
  s!" (SQLSTATE {e.code})" ++ (e.detail.map (": " ++ ·)).getD ""

theorem display_eq (e : ServerError) : e.display = e.message ++ e.remainder := by
  rw [display, remainder]
  cases e.detail with
  | none => simp [toString, String.append_assoc]
  | some detail => simp [toString, ← String.append_assoc]

/-- A report in words begins with its line, whatever it leaves out. -/
theorem exists_display_ofFields (f : ErrorFields) :
    ∃ more, (ofFields f).display = f.line ++ more := by
  rw [display_eq, ErrorFields.line]
  cases hmessage : f.message with
  | none => exact ⟨(ofFields f).remainder, by simp [ofFields, hmessage]⟩
  | some message =>
      cases hcode : f.code with
      | none => exact ⟨(ofFields f).remainder, by simp [ofFields, hmessage]⟩
      | some code =>
          refine ⟨(f.detail.map (": " ++ ·)).getD "", ?_⟩
          simp [ofFields, remainder, hmessage, hcode, toString, String.append_assoc]

end ServerError

namespace ErrorFields

/-- **Reports of errors are read correctly.**  Every payload is divided into pairs and a rest in just
one way. Its fields are the last texts in the pairs with their letters, and the severity is the last
one that does not depend on the language, or else the first one that does. So payloads have the same
fields if they have the same texts with each of these letters, however the pairs are ordered
otherwise, whatever pairs with other letters there are, and whatever the rests are. The fault that
the payload amounts to is a report which begins, in words, with the line that is told of the fields.
-/
theorem parse_of_divided (payload : Octets) :
    ∃ found rest, Divided payload found rest ∧
      (∀ found' rest', Divided payload found' rest' → found' = found ∧ rest' = rest) ∧
      parse payload = ofPairs found ∧
      (∀ payload' found' rest', Divided payload' found' rest' →
        (∀ code ∈ ['V', 'S', 'C', 'M', 'D', 'H'], texts code found' = texts code found) →
        parse payload' = parse payload) ∧
      ∃ report more, Fault.ofErrorReport payload = .server report ∧
        report.display = (parse payload).line ++ more := by
  obtain ⟨rest, hdivided⟩ := exists_divided payload
  obtain ⟨more, hdisplay⟩ := ServerError.exists_display_ofFields (parse payload)
  refine ⟨pairs payload, rest, hdivided, fun _ _ => hdivided.unique, parse_eq_ofPairs payload, ?_,
    _, more, rfl, hdisplay⟩
  intro payload' found' rest' hdivided' htexts
  rw [parse_eq_ofPairs, parse_eq_ofPairs, hdivided'.pairs_eq]
  exact ofPairs_congr htexts

/-- Two messages, of which the second counts, two severities and a pair that is not looked at; the
other payload has the same texts in another order, and another rest. -/
theorem parse_of_divided_reordered :
    let payload : Octets := [83, 65, 0, 77, 66, 0, 86, 67, 0, 77, 68, 0, 0, 72, 69, 0]
    let reordered : Octets := [86, 67, 0, 77, 66, 0, 113, 70, 0, 77, 68, 0, 83, 65, 0, 72, 69]
    parse payload = ⟨some "C", none, some "D", none, none⟩ ∧
      parse reordered = parse payload ∧
      ∃ report more, Fault.ofErrorReport payload = .server report ∧
        report.display = "D" ++ more := by
  intro payload reordered
  have hdivided : Divided payload [(83, [65]), (77, [66]), (86, [67]), (77, [68])]
      [0, 72, 69, 0] :=
    ⟨rfl, by decide, .terminated [72, 69, 0]⟩
  have hreordered : Divided reordered
      [(86, [67]), (77, [66]), (113, [70]), (77, [68]), (83, [65])] [72, 69] :=
    ⟨rfl, by decide, .unterminated 72 [69] (by decide)⟩
  obtain ⟨found, rest, -, hunique, hparse, hsame, report, more, hreport, hdisplay⟩ :=
    parse_of_divided payload
  obtain ⟨rfl, rfl⟩ := hunique _ _ hdivided
  have hfields : parse payload = ⟨some "C", none, some "D", none, none⟩ := by
    rw [hparse]
    decide +kernel
  have hline : (parse payload).line = "D" := by
    rw [hfields]
    rfl
  have hfilter (code : Char) (hcode : code ∈ ['V', 'S', 'C', 'M', 'D', 'H']) :
      [(86, [67]), (77, [66]), (113, [70]), (77, [68]), (83, [65])].filter (letter · = code) =
        [(83, [65]), (77, [66]), (86, [67]), (77, [68])].filter (letter · = code) := by
    simp only [List.mem_cons, List.not_mem_nil, or_false] at hcode
    rcases hcode with rfl | rfl | rfl | rfl | rfl | rfl <;> rfl
  have hreordered_eq : parse reordered = parse payload :=
    hsame _ _ _ hreordered fun code hcode => congrArg (List.map _) (hfilter code hcode)
  exact ⟨hfields, hreordered_eq, report, more, hreport, hline ▸ hdisplay⟩

end ErrorFields

end PgFrontend
