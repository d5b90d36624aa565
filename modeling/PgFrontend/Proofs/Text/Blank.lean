import PgFrontend.Text.Blank
/-!
# Texts without the blanks around them

`exists_blanks_trimBlanks` says that trimming takes only blanks away, and `trimBlanks_append` that
all of those at the two ends go.  White space has no case, so it does not matter whether a text is
trimmed or brought to lower case first.
-/

namespace PgFrontend

variable {cs before after : List Char}

theorem dropWhile_isBlank_eq_self (h : ∀ c ∈ cs, isBlank c = false) :
    cs.dropWhile isBlank = cs := by
  cases cs with
  | nil => rfl
  | cons c cs => rw [List.dropWhile_cons_of_neg (by simp [h])]

theorem trimBlanks_eq_self (h : ∀ c ∈ cs, isBlank c = false) : trimBlanks cs = cs := by
  rw [trimBlanks, dropWhile_isBlank_eq_self h, dropWhile_isBlank_eq_self (by simpa using h),
    List.reverse_reverse]

theorem exists_blanks_trimBlanks (cs : List Char) :
    ∃ before after, cs = before ++ trimBlanks cs ++ after ∧
      ∀ c ∈ before ++ after, isBlank c = true := by
  let tail := cs.dropWhile isBlank
  have hblank (cs : List Char) : ∀ c ∈ cs.takeWhile isBlank, isBlank c = true :=
    List.all_eq_true.mp List.all_takeWhile
  have hhead : cs = cs.takeWhile isBlank ++ tail := List.takeWhile_append_dropWhile.symm
  have htail : tail = trimBlanks cs ++ (tail.reverse.takeWhile isBlank).reverse := by
    rw [trimBlanks, ← List.reverse_append, List.takeWhile_append_dropWhile, List.reverse_reverse]
  refine ⟨cs.takeWhile isBlank, (tail.reverse.takeWhile isBlank).reverse, ?_, ?_⟩
  · rw [List.append_assoc, ← htail, ← hhead]
  · refine List.forall_mem_append.mpr ⟨hblank cs, fun c hc => ?_⟩
    exact hblank tail.reverse c (List.mem_reverse.mp hc)

theorem trimBlanks_append (h : ∀ c ∈ before ++ after, isBlank c = true) :
    trimBlanks (before ++ cs ++ after) = trimBlanks cs := by
  obtain ⟨hbefore, hafter⟩ := List.forall_mem_append.mp h
  rw [trimBlanks, List.append_assoc, List.dropWhile_append_of_pos hbefore, List.dropWhile_append]
  split
  next hempty =>
    have hnone : after.dropWhile isBlank = [] := by
      rw [← List.append_nil after, List.dropWhile_append_of_pos hafter, List.dropWhile_nil]
    rw [hnone, trimBlanks, List.isEmpty_iff.mp hempty]
  next =>
    rw [List.reverse_append, List.dropWhile_append_of_pos (by simpa using hafter), trimBlanks]

theorem isBlank_toLower (c : Char) : isBlank c.toLower = isBlank c := by
  by_cases hupper : c.val ≥ 'A'.val ∧ c.val ≤ 'Z'.val
  · have hlow : 65 ≤ c.toNat := hupper.1
    have hhigh : c.toNat ≤ 90 := hupper.2
    have hlower : c.toLower.toNat = c.toNat + 32 := by
      have hshift : c.toLower.toNat = (c.val + 32).toNat := congrArg Char.toNat (dif_pos hupper)
      rw [hshift, UInt32.toNat_add]
      exact Nat.mod_eq_of_lt (by show c.toNat + 32 < _; omega)
    rw [Bool.eq_iff_iff]
    simp only [isBlank, hlower, Bool.or_eq_true, Bool.and_eq_true, beq_iff_eq, decide_eq_true_eq]
    omega
  · exact congrArg isBlank (dif_neg hupper)

theorem trimBlanks_map_toLower (cs : List Char) :
    trimBlanks (cs.map Char.toLower) = (trimBlanks cs).map Char.toLower := by
  have hsame : isBlank ∘ Char.toLower = isBlank := funext isBlank_toLower
  simp only [trimBlanks, List.dropWhile_map, hsame, ← List.map_reverse]

end PgFrontend
