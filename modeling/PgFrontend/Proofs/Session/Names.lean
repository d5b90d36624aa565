import Mathlib.Data.List.Induction
import Mathlib.Data.List.Nodup
import PgFrontend.Proofs.Text.Split
import PgFrontend.Session.Names
/-!
# Names of statements over the life of a connection

A statement is numbered by its place among the statements in the order in which they were first
prepared, and its name is that number.  `numbered_perform` carries this through any calls, also when
the counter comes round; as long as it does not, `names_stable_and_unique` says that a statement
keeps its name and shares it with no other.
-/

namespace PgFrontend

namespace StatementNames

/-- What is asked of the names: the name to prepare a statement under, or the one that it has. -/
inductive Call
  | put (sql : String)
  | get (sql : String)

/-- The statement that a call wants to be prepared. -/
def Call.prepared? : Call → Option String
  | put sql => some sql
  | get _ => none

def call (s : StatementNames) : Call → Option String × StatementNames
  | .put sql => (some (s.insert sql).1, (s.insert sql).2)
  | .get sql => (s.find? sql, s)

def perform (s : StatementNames) (calls : List Call) : StatementNames :=
  calls.foldl (fun s c => (s.call c).2) s

/-- The different statements of some calls, in the order in which they were first prepared. -/
def prepared (calls : List Call) : List String :=
  (calls.filterMap Call.prepared?).eraseDups

/-- Some call of a connection's life was answered so. -/
def Answered (calls : List Call) (c : Call) (answer : Option String) : Prop :=
  ∃ before later, calls = before ++ c :: later ∧ ((perform {} before).call c).1 = answer

variable {s : StatementNames} {sql other name : String} {calls later : List Call}

theorem perform_append (s : StatementNames) (calls later : List Call) :
    s.perform (calls ++ later) = (s.perform calls).perform later :=
  List.foldl_append

/-! ## A name that was given -/

theorem insert_of_some (h : s.find? sql = some name) : s.insert sql = (name, s) := by
  rw [insert, h]

theorem insert_of_none (h : s.find? sql = none) :
    s.insert sql = (s!"S_{s.next.toNat}",
      { names := (sql, s!"S_{s.next.toNat}") :: s.names, next := s.next + 1 }) := by
  rw [insert, h]

theorem find?_insert_self (s : StatementNames) (sql : String) :
    (s.insert sql).2.find? sql = some (s.insert sql).1 := by
  cases h : s.find? sql with
  | some name => rw [insert_of_some h, h]
  | none =>
      rw [insert_of_none h]
      exact List.lookup_cons_self

theorem find?_insert_of_ne (h : other ≠ sql) : (s.insert sql).2.find? other = s.find? other := by
  cases hfound : s.find? sql with
  | some name => rw [insert_of_some hfound]
  | none =>
      rw [insert_of_none hfound, find?, List.lookup_cons, beq_false_of_ne h]
      rfl

theorem find?_call (h : s.find? sql = some name) (c : Call) :
    (s.call c).2.find? sql = some name := by
  cases c with
  | get sql => exact h
  | put added =>
      by_cases heq : sql = added
      · subst heq
        rw [call, insert_of_some h]
        exact h
      · exact (find?_insert_of_ne heq).trans h

/-- A statement that has a name keeps it. -/
theorem find?_perform (h : s.find? sql = some name) (later : List Call) :
    (s.perform later).find? sql = some name := by
  induction later generalizing s with
  | nil => exact h
  | cons c later ih => exact ih (find?_call h c)

/-- The name that a statement was prepared under is found from then on. -/
theorem Answered.find?_eq {answer : Option String} (h : Answered calls (.put sql) answer) :
    (perform {} calls).find? sql = answer := by
  obtain ⟨before, later, rfl, rfl⟩ := h
  rw [perform_append]
  exact find?_perform (find?_insert_self _ sql) later

/-! ## The number of a statement -/

/-- One element more is new only if it was not there before. -/
theorem eraseDups_concat (statements : List String) (sql : String) :
    (statements ++ [sql]).eraseDups =
      if sql ∈ statements then statements.eraseDups else statements.eraseDups ++ [sql] := by
  rw [List.eraseDups_append, List.removeAll, List.filter_cons, List.filter_nil]
  by_cases hmem : sql ∈ statements <;> simp [hmem, List.eraseDups_cons]

theorem prepared_put (calls : List Call) (sql : String) :
    prepared (calls ++ [.put sql]) =
      if sql ∈ prepared calls then prepared calls else prepared calls ++ [sql] := by
  have hput : (calls ++ [Call.put sql]).filterMap Call.prepared? =
      calls.filterMap Call.prepared? ++ [sql] := List.filterMap_append
  rw [prepared, hput, eraseDups_concat, prepared]
  simp only [List.mem_eraseDups]

theorem prepared_get (calls : List Call) (sql : String) :
    prepared (calls ++ [.get sql]) = prepared calls := by
  have hget : (calls ++ [Call.get sql]).filterMap Call.prepared? =
      calls.filterMap Call.prepared? ++ [] := List.filterMap_append
  rw [prepared, hget, List.append_nil, prepared]

theorem mem_prepared_iff : sql ∈ prepared calls ↔ .put sql ∈ calls := by
  rw [prepared, List.mem_eraseDups, List.mem_filterMap]
  constructor
  · rintro ⟨c, hc, hsql⟩
    cases c with
    | put added => exact Option.some.inj hsql ▸ hc
    | get _ => cases hsql
  · exact fun h => ⟨_, h, rfl⟩

/-- The names are those of these statements in this order, by a counter of 64 bits. -/
structure Numbered (s : StatementNames) (statements : List String) : Prop where
  nodup : statements.Nodup
  next_eq : s.next = UInt64.ofNat statements.length
  size_eq : s.size = statements.length
  find?_eq : ∀ i sql, statements[i]? = some sql →
    s.find? sql = some s!"S_{(UInt64.ofNat i).toNat}"
  find?_none : ∀ sql, sql ∉ statements → s.find? sql = none

namespace Numbered

variable {statements : List String}

theorem empty : Numbered {} [] :=
  ⟨List.nodup_nil, rfl, rfl, nofun, fun _ _ => rfl⟩

theorem isSome_iff (h : s.Numbered statements) :
    (s.find? sql).isSome = true ↔ sql ∈ statements := by
  constructor
  · intro hsome
    by_contra hmem
    rw [h.find?_none sql hmem] at hsome
    cases hsome
  · intro hmem
    obtain ⟨i, hi⟩ := List.mem_iff_getElem?.mp hmem
    rw [h.find?_eq i sql hi]
    rfl

theorem insert_known (h : s.Numbered statements) (hmem : sql ∈ statements) :
    (s.insert sql).2 = s := by
  obtain ⟨name, hname⟩ := Option.isSome_iff_exists.mp (h.isSome_iff.mpr hmem)
  rw [insert_of_some hname]

theorem insert_new (h : s.Numbered statements) (hnew : sql ∉ statements) :
    (s.insert sql).2.Numbered (statements ++ [sql]) := by
  have hnone := h.find?_none sql hnew
  constructor
  · rw [← List.concat_eq_append]
    exact h.nodup.concat hnew
  · rw [insert_of_none hnone, List.length_append, UInt64.ofNat_add, ← h.next_eq]
    rfl
  · rw [insert_of_none hnone, List.length_append, ← h.size_eq]
    rfl
  · intro i added hi
    rcases Nat.lt_or_ge i statements.length with hlt | hge
    · rw [List.getElem?_append_left hlt] at hi
      have hne : added ≠ sql := fun heq => hnew (heq ▸ List.mem_of_getElem? hi)
      rw [find?_insert_of_ne hne, h.find?_eq i added hi]
    · rw [List.getElem?_append_right hge, List.getElem?_singleton,
        Option.ite_none_right_eq_some] at hi
      obtain ⟨hlast, hadded⟩ := hi
      have hi : i = statements.length := Nat.le_antisymm (Nat.sub_eq_zero_iff_le.mp hlast) hge
      rw [← Option.some.inj hadded, find?_insert_self, insert_of_none hnone, h.next_eq, hi]
  · intro absent habsent
    rw [List.mem_append, List.mem_singleton, not_or] at habsent
    rw [find?_insert_of_ne habsent.2, h.find?_none absent habsent.1]

theorem name_injective {i j : Nat} (h : s!"S_{i}" = s!"S_{j}") : i = j := by
  have hdigits : Nat.toDigits 10 i = Nat.toDigits 10 j := by
    simpa using congrArg String.toList h
  rw [← ofDigits_toDigits i, hdigits, ofDigits_toDigits]

/-- As long as the counter has not come round, the name of a statement is its number. -/
theorem find?_eq_some_iff (h : s.Numbered statements) (hfew : statements.length < UInt64.size) :
    s.find? sql = some name ↔ ∃ i : Nat, statements[i]? = some sql ∧ name = s!"S_{i}" := by
  have hname (i : Nat) (hi : statements[i]? = some sql) : s.find? sql = some s!"S_{i}" := by
    obtain ⟨hlt, -⟩ := List.getElem?_eq_some_iff.mp hi
    rw [h.find?_eq i sql hi, UInt64.toNat_ofNat_of_lt' (Nat.lt_trans hlt hfew)]
  constructor
  · intro hfound
    have hmem := h.isSome_iff.mp (Option.isSome_of_eq_some hfound)
    obtain ⟨i, hi⟩ := List.mem_iff_getElem?.mp hmem
    exact ⟨i, hi, Option.some.inj (hfound.symm.trans (hname i hi))⟩
  · rintro ⟨i, hi, rfl⟩
    exact hname i hi

theorem eq_of_find?_eq (h : s.Numbered statements) (hfew : statements.length < UInt64.size)
    (hsql : s.find? sql = some name) (hother : s.find? other = some name) : sql = other := by
  obtain ⟨i, hi, rfl⟩ := (h.find?_eq_some_iff hfew).mp hsql
  obtain ⟨j, hj, hname⟩ := (h.find?_eq_some_iff hfew).mp hother
  rw [name_injective hname, hj] at hi
  exact (Option.some.inj hi).symm

end Numbered

/-- Whatever is called, the statements are numbered in the order in which they were first prepared.
-/
theorem numbered_perform (calls : List Call) : (perform {} calls).Numbered (prepared calls) := by
  induction calls using List.reverseRecOn with
  | nil => exact .empty
  | append_singleton calls c ih =>
      rw [perform_append]
      cases c with
      | get sql =>
          rw [prepared_get]
          exact ih
      | put sql =>
          show ((perform {} calls).insert sql).2.Numbered _
          rw [prepared_put]
          split
          next hmem =>
            rw [ih.insert_known hmem]
            exact ih
          next hnew => exact ih.insert_new hnew

/-- **Names of statements are stable and unique over the whole life of a connection.**  After any
calls, a statement has a name just if it was prepared before, and this is the name that every call
that prepares it answers with, before and after; it is never changed.  Different statements have
different names.  The names given out are `S_0`, `S_1` and so on, as many as there are different
statements, in the order in which these were first prepared.  Preparing a statement again, or
looking for one, changes nothing. -/
theorem names_stable_and_unique (calls : List Call)
    (hfew : (prepared calls).length < UInt64.size) :
    (∀ sql, ((perform {} calls).find? sql).isSome ↔ .put sql ∈ calls) ∧
    (∀ sql name, (perform {} calls).find? sql = some name → ∀ later,
      (perform {} (calls ++ later)).find? sql = some name ∧
      ∀ answer, Answered (calls ++ later) (.put sql) answer → answer = some name) ∧
    (∀ sql other name, (perform {} calls).find? sql = some name →
      (perform {} calls).find? other = some name → sql = other) ∧
    (prepared calls).Nodup ∧ (perform {} calls).size = (prepared calls).length ∧
    (∀ (i : Nat) sql, (prepared calls)[i]? = some sql →
      (perform {} calls).find? sql = some s!"S_{i}") ∧
    (∀ name, (∃ sql, Answered calls (.put sql) (some name)) ↔
      ∃ i < (perform {} calls).size, name = s!"S_{i}") ∧
    (∀ sql, .put sql ∈ calls → ((perform {} calls).call (.put sql)).2 = perform {} calls) ∧
    ∀ sql, ((perform {} calls).call (.get sql)).2 = perform {} calls := by
  have hnumbered := numbered_perform calls
  refine ⟨fun sql => hnumbered.isSome_iff.trans mem_prepared_iff, ?_,
    fun sql other name => hnumbered.eq_of_find?_eq hfew, hnumbered.nodup, hnumbered.size_eq,
    fun i sql hi => (hnumbered.find?_eq_some_iff hfew).mpr ⟨i, hi, rfl⟩, ?_,
    fun sql hput => hnumbered.insert_known (mem_prepared_iff.mpr hput), fun sql => rfl⟩
  · intro sql name hname later
    have hkept : (perform {} (calls ++ later)).find? sql = some name := by
      rw [perform_append]
      exact find?_perform hname later
    exact ⟨hkept, fun answer hanswer => hanswer.find?_eq.symm.trans hkept⟩
  · intro name
    rw [hnumbered.size_eq]
    constructor
    · rintro ⟨sql, hanswer⟩
      obtain ⟨i, hi, rfl⟩ := (hnumbered.find?_eq_some_iff hfew).mp hanswer.find?_eq
      obtain ⟨hlt, -⟩ := List.getElem?_eq_some_iff.mp hi
      exact ⟨i, hlt, rfl⟩
    · rintro ⟨i, hlt, rfl⟩
      have hi : (prepared calls)[i]? = some (prepared calls)[i] := List.getElem?_eq_getElem hlt
      have hput := mem_prepared_iff.mp (List.mem_of_getElem? hi)
      obtain ⟨before, later, hcalls⟩ := List.append_of_mem hput
      have hanswer : Answered calls (.put (prepared calls)[i])
          (some ((perform {} before).insert (prepared calls)[i]).1) :=
        ⟨before, later, hcalls, rfl⟩
      have hfound := (hnumbered.find?_eq_some_iff hfew).mpr ⟨i, hi, rfl⟩
      refine ⟨(prepared calls)[i], ?_⟩
      rw [← hfound, hanswer.find?_eq]
      exact hanswer

/-- Two statements, of which one is looked for too early and the other is prepared twice. -/
theorem names_stable_and_unique_two :
    let calls : List Call :=
      [.put "SELECT 1", .get "SELECT 2", .put "SELECT 2", .put "SELECT 1", .get "SELECT 3"]
    (prepared calls).length < UInt64.size ∧ (perform {} calls).size = 2 ∧
      ((perform {} calls).find? "SELECT 3").isSome = false ∧
      (perform {} (calls ++ [.put "SELECT 3"])).find? "SELECT 2" = some "S_1" ∧
      ∃ sql, Answered calls (.put sql) (some "S_0") := by
  intro calls
  have hprepared : prepared calls = ["SELECT 1", "SELECT 2"] := by decide
  have hfew : (prepared calls).length < UInt64.size := by
    rw [hprepared]
    decide
  obtain ⟨hfound, hstable, -, -, hsize, hnamed, hgiven, -⟩ := names_stable_and_unique calls hfew
  rw [hprepared] at hsize
  have hlast : (perform {} calls).find? "SELECT 2" = some "S_1" :=
    hnamed 1 "SELECT 2" (by rw [hprepared]; rfl)
  refine ⟨hfew, hsize, ?_, (hstable _ _ hlast _).1, (hgiven "S_0").mpr ⟨0, ?_, rfl⟩⟩
  · rw [Bool.eq_false_iff, Ne, hfound]
    simp [calls]
  · rw [hsize]
    decide

end StatementNames

end PgFrontend
