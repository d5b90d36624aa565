/-!
# Settings

Texts by key, such as the options and the run-time parameters of a session. Setting a key again
replaces its text, so that each key has one.
-/

namespace PgFrontend

structure Settings where
  entries : List (String × String) := []
  deriving Repr, DecidableEq

namespace Settings

def find? (s : Settings) (key : String) : Option String :=
  s.entries.lookup key

/-- The settings after one more, which replaces any earlier text of its key. -/
def insert (s : Settings) (key text : String) : Settings :=
  ⟨s.entries.filter (·.1 != key) ++ [(key, text)]⟩

@[simp] theorem find?_insert_self (s : Settings) (key text : String) :
    (s.insert key text).find? key = some text := by
  have gone : (s.entries.filter (·.1 != key)).lookup key = none := by
    simp only [List.lookup_eq_none_iff, List.mem_filter]
    rintro entry ⟨-, h⟩
    rw [bne_iff_ne] at h ⊢
    exact h.symm
  simp [insert, find?, List.lookup_append, gone]

theorem find?_insert_of_ne (s : Settings) (key text : String) {other : String} (h : other ≠ key) :
    (s.insert key text).find? other = s.find? other := by
  have kept (entries : List (String × String)) :
      (entries.filter (·.1 != key)).lookup other = entries.lookup other := by
    induction entries with
    | nil => rfl
    | cons entry rest ih =>
        obtain ⟨k, t⟩ := entry
        by_cases hk : k = key
        · have hne : (other == k) = false := by simpa [hk] using h
          have hb : (k != key) = false := by simp [hk]
          simp only [List.filter_cons, hb, Bool.false_eq_true, if_false, ih, List.lookup_cons, hne]
        · have hb : (k != key) = true := by simpa using hk
          simp only [List.filter_cons, hb, if_true, List.lookup_cons, ih]
  have apart : (other == key) = false := by simpa using h
  simp [insert, find?, List.lookup_append, kept, List.lookup_singleton, apart]

theorem nodup_insert {s : Settings} (h : (s.entries.map (·.1)).Nodup) (key text : String) :
    ((s.insert key text).entries.map (·.1)).Nodup := by
  simp only [insert, List.map_append, List.map_cons, List.map_nil, List.nodup_append]
  refine ⟨h.sublist (List.filter_sublist.map _), by simp, ?_⟩
  intro old hold new hnew
  obtain ⟨entry, hentry, rfl⟩ := List.mem_map.mp hold
  rw [List.mem_singleton.mp hnew]
  simpa using (List.mem_filter.mp hentry).2

end Settings

end PgFrontend
