import PgFrontend.Octets
/-!
# Runs of items in a payload

Items that stand one after another, as long as they are proper ones, and a rest at which the run ends.
A reader that takes one item after another and stops at such a rest reads every run, and if each
payload either ends a run or begins with an item, it is a run.
-/

namespace PgFrontend.Octets

variable {ι α : Type}

/-- A payload is a run of items, as long as can be, and a rest. -/
structure Run (write : ι → Octets) (Proper : ι → Prop) (Ended : Octets → Prop) (s : Octets)
    (items : List ι) (rest : Octets) : Prop where
  octets_eq : s = items.flatMap write ++ rest
  proper : ∀ i ∈ items, Proper i
  ended : Ended rest

/-- A reader takes a proper item off and goes on after it, and stops where a run ends. -/
structure ReadsRun (read : Octets → List α) (meaning : ι → α) (write : ι → Octets)
    (Proper : ι → Prop) (Ended : Octets → Prop) : Prop where
  read_ended : ∀ {s}, Ended s → read s = []
  read_write : ∀ {i}, Proper i → ∀ s, read (write i ++ s) = meaning i :: read s

namespace Run

variable {read : Octets → List α} {meaning : ι → α} {write : ι → Octets} {Proper : ι → Prop}
  {Ended : Octets → Prop} {s rest : Octets} {items : List ι}

theorem read_eq (h : Run write Proper Ended s items rest)
    (hreads : ReadsRun read meaning write Proper Ended) : read s = items.map meaning := by
  obtain ⟨rfl, hproper, hended⟩ := h
  induction items with
  | nil => exact hreads.read_ended hended
  | cons i items ih =>
      obtain ⟨hfirst, hothers⟩ := List.forall_mem_cons.mp hproper
      rw [List.flatMap_cons, List.append_assoc, hreads.read_write hfirst, ih hothers,
        List.map_cons]

theorem rest_eq {rest' : Octets} (h : Run write Proper Ended s items rest)
    (h' : Run write Proper Ended s items rest') : rest' = rest :=
  List.append_cancel_left (h'.octets_eq.symm.trans h.octets_eq)

theorem exists_of_split
    (hsplit : ∀ s, Ended s ∨ ∃ i t, Proper i ∧ s = write i ++ t ∧ t.length < s.length)
    (s : Octets) : ∃ items rest, Run write Proper Ended s items rest := by
  induction hsize : s.length using Nat.strongRecOn generalizing s with
  | ind size ih =>
      rcases hsplit s with hended | ⟨i, t, hfirst, rfl, hless⟩
      · exact ⟨[], s, rfl, List.forall_mem_nil _, hended⟩
      · obtain ⟨items, rest, hrun⟩ := ih t.length (hsize ▸ hless) t rfl
        refine ⟨i :: items, rest, ?_, List.forall_mem_cons.mpr ⟨hfirst, hrun.proper⟩, hrun.ended⟩
        rw [List.flatMap_cons, List.append_assoc, ← hrun.octets_eq]

end Run

end PgFrontend.Octets
