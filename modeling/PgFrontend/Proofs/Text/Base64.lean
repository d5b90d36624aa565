import PgFrontend.Proofs.Text.Blank
import PgFrontend.Text.Base64
/-!
# Reading back what was written in base64

Decoding undoes encoding.  Both are looked at through the numbers below 64 that the symbols stand
for: `numbers` cuts octets into them, writing shows them, and reading puts them together again.
-/

namespace PgFrontend.Base64

open Octets

/-- The numbers that some octets are written by. -/
def numbers : Octets → List Nat
  | [] => []
  | [a] => [a.toNat / 4, a.toNat % 4 * 16]
  | [a, b] => [a.toNat / 4, a.toNat % 4 * 16 + b.toNat / 16, b.toNat % 16 * 4]
  | a :: b :: c :: rest =>
      a.toNat / 4 :: (a.toNat % 4 * 16 + b.toNat / 16) :: (b.toNat % 16 * 4 + c.toNat / 64) ::
        c.toNat % 64 :: numbers rest

theorem value?_symbol : ∀ n < 64, value? (symbol n) = some n := by
  decide

theorem symbol_ne_pad : ∀ n < 64, symbol n ≠ pad := by
  decide

theorem numbers_lt (s : Octets) : ∀ n ∈ numbers s, n < 64 := by
  fun_induction numbers s with
  | case1 => simp
  | case2 a =>
      have := a.toNat_lt
      simp
      omega
  | case3 a b =>
      have := a.toNat_lt
      have := b.toNat_lt
      simp
      omega
  | case4 a b c rest ih =>
      have := a.toNat_lt
      have := b.toNat_lt
      have := c.toNat_lt
      simp only [List.forall_mem_cons]
      exact ⟨by omega, by omega, by omega, by omega, ih⟩

theorem numbers_append {front : Octets} (h : front.length % 3 = 0) (back : Octets) :
    numbers (front ++ back) = numbers front ++ numbers back := by
  fun_induction numbers front with
  | case1 => rfl
  | case2 => simp at h
  | case3 => simp at h
  | case4 a b c rest ih =>
      simp only [List.length_cons] at h
      simp only [List.cons_append, numbers, ih (by omega)]

theorem length_numbers {s : Octets} (h : s.length % 3 = 0) : (numbers s).length % 4 = 0 := by
  fun_induction numbers s with
  | case1 => rfl
  | case2 => simp at h
  | case3 => simp at h
  | case4 a b c rest ih =>
      simp only [List.length_cons] at h ⊢
      have := ih (by omega)
      omega

theorem encode_eq (s : Octets) :
    encode s = (numbers s).map symbol ++ List.replicate ((3 - s.length % 3) % 3) pad := by
  fun_induction numbers s with
  | case1 => rfl
  | case2 => rfl
  | case3 => rfl
  | case4 a b c rest ih =>
      have hcount : (3 - (a :: b :: c :: rest).length % 3) % 3 = (3 - rest.length % 3) % 3 := by
        simp only [List.length_cons]
        omega
      rw [hcount, encode, ih]
      rfl

theorem group_numbers (s : Octets) : group (numbers s) = s := by
  have hbyte (b : UInt8) {n : Nat} (h : n = b.toNat) : UInt8.ofNat n = b := by
    rw [h, UInt8.ofNat_toNat]
  fun_induction numbers s with
  | case1 => rfl
  | case2 a =>
      rw [group, hbyte a (by omega)]
  | case3 a b =>
      have := b.toNat_lt
      rw [group, hbyte a (by omega), hbyte b (by omega)]
  | case4 a b c rest ih =>
      have := b.toNat_lt
      have := c.toNat_lt
      rw [group, ih, hbyte a (by omega), hbyte b (by omega), hbyte c (by omega)]

theorem body_symbols (offset : Nat) {l : List Nat} (h : ∀ n ∈ l, n < 64) :
    body offset (l.map symbol) = .ok l := by
  induction l generalizing offset with
  | nil => rfl
  | cons n l ih =>
      rw [List.forall_mem_cons] at h
      rw [List.map_cons, body, value?_symbol n h.1]
      dsimp only
      rw [ih _ h.2]
      rfl

theorem tail_pads (offset count : Nat) {index : Nat} (padded : Option Nat) (h : 2 ≤ index) :
    tail offset index padded (List.replicate count pad) = .ok ([], count) := by
  induction count generalizing index padded with
  | zero => rfl
  | succ count ih =>
      rw [List.replicate_succ, tail.eq_def]
      dsimp only
      rw [if_pos rfl, if_neg (by omega), ih _ (by omega)]
      rfl

theorem tail_symbols (offset index count : Nat) {l : List Nat} (h : ∀ n ∈ l, n < 64)
    (hlength : 2 ≤ index + l.length) :
    tail offset index none (l.map symbol ++ List.replicate count pad) =
      .ok (l.map symbol, count) := by
  induction l generalizing index with
  | nil => exact tail_pads offset count none hlength
  | cons n l ih =>
      rw [List.forall_mem_cons] at h
      rw [List.length_cons] at hlength
      rw [List.map_cons, List.cons_append, tail, if_neg (symbol_ne_pad n h.1)]
      dsimp only
      rw [value?_symbol n h.1, if_neg (by simp), ih _ h.2 (by omega)]
      rfl

theorem filterMap_value?_symbols {l : List Nat} (h : ∀ n ∈ l, n < 64) :
    (l.map symbol).filterMap value? = l := by
  induction l with
  | nil => rfl
  | cons n l ih =>
      rw [List.forall_mem_cons] at h
      rw [List.map_cons, List.filterMap_cons, value?_symbol n h.1, ih h.2]

theorem exists_back {s : Octets} (h : s ≠ []) :
    ∃ front back, s = front ++ back ∧ front.length % 3 = 0 ∧ 0 < back.length ∧
      back.length ≤ 3 := by
  have hpos : 0 < s.length := List.length_pos_iff.mpr h
  refine ⟨s.take ((s.length - 1) / 3 * 3), s.drop ((s.length - 1) / 3 * 3),
    (List.take_append_drop ..).symm, ?_, ?_, ?_⟩
  · rw [List.length_take]
    omega
  · rw [List.length_drop]
    omega
  · rw [List.length_drop]
    omega

theorem last_group {back : Octets} (hpos : 0 < back.length) (hle : back.length ≤ 3) :
    2 ≤ (numbers back).length ∧
      (numbers back).length + (3 - back.length % 3) % 3 = 4 ∧
      hasSpareBits (numbers back) = false := by
  match back with
  | [a] => simp [numbers, hasSpareBits]
  | [a, b] => simp [numbers, hasSpareBits]
  | [a, b, c] => simp [numbers, hasSpareBits]

/-- Symbols are read in two parts: whole groups, and the last group with its padding. -/
theorem decode_symbols {whole last : List Nat} {count : Nat} (hwhole : ∀ n ∈ whole, n < 64)
    (hlast : ∀ n ∈ last, n < 64) (hlength : whole.length % 4 = 0) (htwo : 2 ≤ last.length)
    (hfour : last.length + count = 4) (hspare : hasSpareBits last = false) :
    decode (whole.map symbol ++ (last.map symbol ++ List.replicate count pad)) =
      .ok (group (whole ++ last)) := by
  generalize hs : whole.map symbol ++ (last.map symbol ++ List.replicate count pad) = s
  have hsize : s.length = whole.length + 4 := by
    rw [← hs, List.length_append, List.length_append, List.length_map, List.length_map,
      List.length_replicate, hfour]
  have hoffset : s.length - tailSize s.length = (whole.map symbol).length := by
    rw [tailSize, if_pos (by omega), List.length_map]
    omega
  have htake : s.take (whole.map symbol).length = whole.map symbol := by
    rw [← hs, List.take_left]
  have hdrop : s.drop (whole.map symbol).length =
      last.map symbol ++ List.replicate count pad := by
    rw [← hs, List.drop_left]
  have hnonempty : ¬s.isEmpty = true := by
    rw [List.isEmpty_iff_length_eq_zero]
    omega
  have htail := tail_symbols (whole.map symbol).length 0 count hlast (by omega)
  unfold decode
  dsimp only
  rw [if_neg hnonempty, if_neg (by omega), hoffset, htake, hdrop, body_symbols 0 hwhole, htail]
  simp only [bind, Except.bind, pure, Except.pure, List.length_map, filterMap_value?_symbols hlast]
  rw [if_neg (by omega), hfour, if_neg (by decide), hspare, if_neg (by decide)]

theorem decode_encode (s : Octets) : decode (encode s) = .ok s := by
  by_cases hempty : s = []
  · subst hempty
    rfl
  obtain ⟨front, back, rfl, hfront, hpos, hle⟩ := exists_back hempty
  obtain ⟨htwo, hfour, hspare⟩ := last_group hpos hle
  have hpadding : (3 - (front ++ back).length % 3) % 3 = (3 - back.length % 3) % 3 := by
    rw [List.length_append]
    omega
  rw [encode_eq, hpadding, numbers_append hfront, List.map_append, List.append_assoc,
    decode_symbols (numbers_lt front) (numbers_lt back) (length_numbers hfront) htwo hfour hspare,
    ← numbers_append hfront, group_numbers]

/-! ## Base64 as text -/

theorem mem_encode {b : UInt8} {s : Octets} (h : b ∈ encode s) :
    b = pad ∨ ∃ n < 64, b = symbol n := by
  rw [encode_eq, List.mem_append, List.mem_map] at h
  rcases h with ⟨n, hn, rfl⟩ | hpad
  · exact .inr ⟨n, numbers_lt s n hn, rfl⟩
  · exact .inl (List.eq_of_mem_replicate hpad)

theorem forall_mem_encode {p : UInt8 → Prop} (hpad : p pad) (hsymbol : ∀ n < 64, p (symbol n))
    (s : Octets) : ∀ b ∈ encode s, p b := by
  intro b hb
  rcases mem_encode hb with rfl | ⟨n, hn, rfl⟩
  · exact hpad
  · exact hsymbol n hn

theorem ofChars_text (s : Octets) : ofChars (text s).toList = encode s := by
  have hone : ∀ b ∈ encode s, String.utf8EncodeChar (Char.ofNat b.toNat) = [b] :=
    forall_mem_encode (by decide) (by decide) s
  rw [text, String.toList_ofList, ofChars, List.flatMap_map, List.flatMap_def,
    List.map_congr_left hone, ← List.flatMap_def, List.flatMap_singleton']

theorem comma_not_mem_text (s : Octets) : ',' ∉ (text s).toList := by
  rw [text, String.toList_ofList, List.mem_map]
  rintro ⟨b, hb, hcomma⟩
  have hne : ∀ b ∈ encode s, Char.ofNat b.toNat ≠ ',' :=
    forall_mem_encode (by decide) (by decide) s
  exact hne b hb hcomma

theorem isBlank_of_mem_text {s : Octets} {c : Char} (h : c ∈ (text s).toList) :
    isBlank c = false := by
  rw [text, String.toList_ofList, List.mem_map] at h
  obtain ⟨b, hb, rfl⟩ := h
  have hnonblank : ∀ b ∈ encode s, isBlank (Char.ofNat b.toNat) = false :=
    forall_mem_encode (by decide) (by decide) s
  exact hnonblank b hb

theorem trimBlanks_text (s : Octets) : trimBlanks (text s).toList = (text s).toList :=
  trimBlanks_eq_self fun _ => isBlank_of_mem_text

end PgFrontend.Base64
