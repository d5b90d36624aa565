import PgFrontend.Proofs.Session.Attempts
import PgFrontend.Proofs.Text.Blank
import PgFrontend.Proofs.Text.Characters
/-!
# What the isolation probe finds

A session is asked for its isolation level right after it has been opened.  The query can fail, but
nothing can go wrong with its answer: the standard level stands in for one that is not understood.
`parse_eq_ok_iff` says which texts name a level, `decodeAs_text_eq_ok_iff` which columns have a
text, and `probedLevel_eq_iff` puts the two together.
-/

namespace PgFrontend

open Octets

/-! ## Names of levels -/

namespace IsolationLevel

variable {level : IsolationLevel} {s : String}

/-- Whether a text is the name of a level in SQL, in any case and with any white space around it. -/
def Names (level : IsolationLevel) (s : String) : Prop :=
  ∃ before name after, s.toList = before ++ name ++ after ∧
    (∀ c ∈ before ++ after, isBlank c = true) ∧
    name.map Char.toLower = level.sql.toList.map Char.toLower

theorem normal_sql (level : IsolationLevel) :
    normal level.sql = level.sql.toList.map Char.toLower := by
  cases level <;> decide

theorem normal_eq_iff : normal s = normal level.sql ↔ level.Names s := by
  constructor
  · intro hnormal
    obtain ⟨before, after, hsplit, hblank⟩ := exists_blanks_trimBlanks s.toList
    exact ⟨before, _, after, hsplit, hblank, hnormal.trans (normal_sql level)⟩
  · rintro ⟨before, name, after, hsplit, hblank, hname⟩
    rw [normal, hsplit, trimBlanks_append hblank, ← trimBlanks_map_toLower, hname,
      trimBlanks_map_toLower, ← normal]

theorem parse_eq_ok_iff : parse s = .ok level ↔ level.Names s := by
  rw [← normal_eq_iff]
  constructor
  · intro hparse
    unfold parse at hparse
    dsimp only at hparse
    split at hparse
    next found hfound =>
      cases hparse
      have hnormal := List.find?_some hfound
      exact (eq_of_beq hnormal).symm
    next => cases hparse
  · intro hnormal
    unfold parse
    dsimp only
    rw [hnormal]
    cases level <;> rfl

end IsolationLevel

/-! ## Columns with a text -/

/-- Whether the values of a column are texts. -/
def Column.HasText (column : Column) : Prop :=
  column.type ∈ [.text, .varchar, .bpchar, .name, .unknown] ∨
    column.type = .char ∧ column.format = .text

theorem Codec.text_canDecode_iff {column : Column} :
    Codec.text.canDecode column.format column.type .text = true ↔ column.HasText := by
  simp [Codec.text, Codec.characterTypes, Column.HasText]

namespace Registry

/-- Texts are decoded by one codec only. -/
theorem find?_builtin_text (format : Format) (oid : Oid) :
    builtin.codecs.find? (·.canDecode format oid .text) =
      if Codec.text.canDecode format oid .text then some .text else none := by
  have hblob : Codec.blob.canDecode format oid .text = false := by simp [Codec.blob]
  show List.find? _ [Codec.blob, Codec.text] = _
  rw [List.find?_cons_of_neg (by rw [hblob]; decide)]
  split
  next haccepts => exact List.find?_cons_of_pos haccepts
  next hrefuses => exact List.find?_cons_of_neg hrefuses

/-- A column of a type of texts has a text just if it is no null and valid UTF-8. -/
theorem decodeAs_text_eq_ok_iff {column : Column} {held : Option Octets} {s : String} :
    builtin.decodeAs String held column.type column.format = .ok (some s) ↔
      held = some (ofString s) ∧ column.HasText := by
  have hkind : FromValue.kind String = .text := rfl
  rw [← Codec.text_canDecode_iff, decodeAs, hkind]
  cases held with
  | none => simp [decode, pure, Except.pure, bind, Except.bind]
  | some octets =>
      rw [Option.some.injEq, ← Utf8.decode_eq_ok_iff]
      simp only [decode, find?_builtin_text]
      by_cases haccepts : Codec.text.canDecode column.format column.type .text = true
      · rw [if_pos haccepts]
        show ((Codec.decodeText octets).map some >>= _) = _ ↔ _
        unfold Codec.decodeText
        cases Utf8.decode octets with
        | ok found =>
            simp [haccepts, Except.map, bind, Except.bind, FromValue.ofValue, pure, Except.pure]
        | error flaw => simp [Except.map, bind, Except.bind]
      · rw [if_neg haccepts]
        simp [haccepts, bind, Except.bind]

end Registry

/-! ## The level of an answer -/

/-- The first column of the first row of a result, with what the row has there. -/
def QueryResult.firstCell (result : QueryResult) : Option (Column × Option Octets) := do
  let row ← result.rows.head?
  let column ← row.columns.head?
  return (column, row.raw 0)

namespace Factory

open Link

/-- Whether the first cell of an answer, if it has one, tells a level: its column has texts, and
what stands there is no null, valid UTF-8 and a name of the level. -/
def Tells (cell : Option (Column × Option Octets)) (level : IsolationLevel) : Prop :=
  ∃ column s, cell = some (column, some (ofString s)) ∧ column.HasText ∧ level.Names s

variable {result : QueryResult} {level : IsolationLevel}

theorem tells_firstCell_iff : Tells result.firstCell level ↔
    ∃ row rows, result.rows = row :: rows ∧
      ∃ s, row.get String .builtin 0 = .ok (some s) ∧ IsolationLevel.parse s = .ok level := by
  simp only [IsolationLevel.parse_eq_ok_iff]
  constructor
  · rintro ⟨column, s, hcell, htext, hnames⟩
    obtain ⟨row, hrow, hcell⟩ := Option.bind_eq_some_iff.mp hcell
    obtain ⟨column', hcolumn, hcell⟩ := Option.bind_eq_some_iff.mp hcell
    obtain ⟨rows, hrows⟩ := List.head?_eq_some_iff.mp hrow
    refine ⟨row, rows, hrows, s, ?_, hnames⟩
    obtain ⟨rfl, hraw⟩ := Prod.mk.inj (Option.some.inj hcell)
    rw [Row.get, ← List.head?_eq_getElem?, hcolumn]
    exact Registry.decodeAs_text_eq_ok_iff.mpr ⟨hraw, htext⟩
  · rintro ⟨row, rows, hrows, s, hget, hnames⟩
    unfold Row.get at hget
    split at hget
    · cases hget
    next column hcolumn =>
      obtain ⟨hraw, htext⟩ := Registry.decodeAs_text_eq_ok_iff.mp hget
      refine ⟨column, s, ?_, htext, hnames⟩
      rw [QueryResult.firstCell, hrows, ← hraw]
      show row.columns.head?.bind _ = _
      rw [List.head?_eq_getElem?, hcolumn]
      rfl

theorem probedLevel_of_tells (h : Tells result.firstCell level) :
    probedLevel .builtin result = level := by
  obtain ⟨row, rows, hrows, s, hget, hparse⟩ := tells_firstCell_iff.mp h
  rw [probedLevel, hrows]
  dsimp only
  rw [hget]
  dsimp only
  rw [hparse]
  rfl

theorem probedLevel_of_silent (h : ∀ level, ¬Tells result.firstCell level) :
    probedLevel .builtin result = .readCommitted := by
  unfold probedLevel
  split
  · rfl
  next row rows hrows =>
    split
    next s hget =>
      cases hparse : IsolationLevel.parse s with
      | ok level =>
          have htells := tells_firstCell_iff.mpr ⟨row, rows, hrows, s, hget, hparse⟩
          exact absurd htells (h level)
      | error fault => rfl
    · rfl

theorem probedLevel_eq_iff : probedLevel .builtin result = level ↔
    Tells result.firstCell level ∨
      level = .readCommitted ∧ ∀ other, ¬Tells result.firstCell other := by
  constructor
  · rintro rfl
    by_cases htells : ∃ other, Tells result.firstCell other
    · obtain ⟨other, hother⟩ := htells
      rw [probedLevel_of_tells hother]
      exact .inl hother
    · have hsilent := not_exists.mp htells
      exact .inr ⟨probedLevel_of_silent hsilent, hsilent⟩
  · rintro (htells | ⟨rfl, hsilent⟩)
    · exact probedLevel_of_tells htells
    · exact probedLevel_of_silent hsilent

/-! ## The probe -/

/-- The probe by itself: the query, and the level of its answer. -/
def probe : Wire IsolationLevel := do
  return probedLevel .builtin (← Query.run isolationProbe)

/-- Something that sets up the session.  A fault in it is wrapped. -/
def wrapped {α : Type} (c : Config) (x : Wire α) : Wire α := fun l =>
  match x l with
  | .error (.fault fault) l => .error (.fault (.connect c.host c.port fault)) l
  | result => result

/-- What is made of a result has no fault to wrap. -/
theorem wrapped_bind_pure {α β : Type} (c : Config) (x : Wire α) (f : α → β) :
    wrapped c (x >>= fun a => pure (f a)) = wrapped c x >>= fun a => pure (f a) := by
  funext l
  show _ = EStateM.bind (wrapped c x) _ l
  cases hx : x l with
  | ok a l' =>
      rw [wrapped, bind_of_ok hx, EStateM.bind, wrapped, hx]
      rfl
  | error halt l' =>
      rw [wrapped, bind_of_error hx, EStateM.bind, wrapped, hx]
      cases halt <;> rfl

theorem setUp_eq_wrapped (c : Config) (sql : String) : setUp c sql = wrapped c (Query.run sql) := by
  funext l
  rw [setUp, wrapped]
  cases Query.run sql l with
  | ok result l' => rfl
  | error halt l' => cases halt <;> rfl

/-- The probe is what an attempt runs once the session has been opened. -/
theorem prepare_eq_probe (c : Config) (nonce : String) :
    prepare c nonce = openSession c nonce >>= fun outcome =>
      wrapped c probe >>= fun isolation => chooseSchema c >>= fun _ => pure {
        codecs := .builtin
        isolation
        forceBinary := c.forceBinary
        parameters := outcome.parameters
        backendKey := outcome.backendKey } := by
  simp only [prepare_eq, probe, wrapped_bind_pure, setUp_eq_wrapped, bind_assoc, pure_bind]
  rfl

theorem probe_eq_error_iff {l l' : Link} {halt : Halt} :
    probe l = .error halt l' ↔ Query.run isolationProbe l = .error halt l' := by
  unfold probe
  cases hrun : Query.run isolationProbe l with
  | ok result l₁ =>
      rw [bind_of_ok hrun]
      exact ⟨nofun, nofun⟩
  | error halt' l₁ =>
      rw [bind_of_error hrun]
      simp

theorem probe_eq_ok_iff {l l' : Link} :
    probe l = .ok level l' ↔
      ∃ result, Query.run isolationProbe l = .ok result l' ∧
        probedLevel .builtin result = level := by
  unfold probe
  cases hrun : Query.run isolationProbe l with
  | ok result l₁ =>
      rw [bind_of_ok hrun]
      simp [pure, EStateM.pure, and_comm]
  | error halt' l₁ =>
      rw [bind_of_error hrun]
      simp

/-- **The probe fails only if its query fails, and otherwise reports the right level.**  An attempt
runs it once the session has been opened, wraps its fault, and hands its level out.  It ends with a
fault or a wait just if the query does, and with the same.  Otherwise the level is the one that the
first column of the first row tells, and the standard one if that tells none: no other row or column
matters, nor does a value that is no text. -/
theorem probe_reports_level :
    (∀ c nonce, prepare c nonce = openSession c nonce >>= fun outcome =>
      wrapped c probe >>= fun isolation => chooseSchema c >>= fun _ => pure {
        codecs := .builtin
        isolation
        forceBinary := c.forceBinary
        parameters := outcome.parameters
        backendKey := outcome.backendKey }) ∧
    (∀ l halt l', probe l = .error halt l' ↔ Query.run isolationProbe l = .error halt l') ∧
    (∀ l level l', probe l = .ok level l' ↔
      ∃ result, Query.run isolationProbe l = .ok result l' ∧
        (Tells result.firstCell level ∨
          level = .readCommitted ∧ ∀ other, ¬Tells result.firstCell other)) := by
  refine ⟨prepare_eq_probe, fun l halt l' => probe_eq_error_iff, fun l level l' => ?_⟩
  simp only [probe_eq_ok_iff, probedLevel_eq_iff]

end Factory

end PgFrontend
