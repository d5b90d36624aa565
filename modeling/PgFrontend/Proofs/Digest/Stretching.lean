import PgFrontend.Digest.Hmac
/-!
# What a salted password is made of

The function `Hi` adds up keyed digests by exclusive or, and each of them is taken of the one
before.  What the sum comes to is told place by place, and which digests are taken for it is seen by
a way of taking them that keeps notes.

The loop holds the sum of the digests so far and the last of them.  `stretchAfter_succ` says that a
round leaves it so, with one digest more, and `stretchAfter_eq` what it ends with.
-/

namespace PgFrontend

namespace Octets

/-- The exclusive or of blocks of `width` octets: at each place, that of the octets which the blocks
have there. -/
def xorAll (width : Nat) (blocks : List Octets) : Octets :=
  (List.range width).map fun place =>
    (blocks.map fun block => block.getD place 0).foldl (· ^^^ ·) 0

variable {width : Nat} {block : Octets}

@[simp] theorem length_xorAll (width : Nat) (blocks : List Octets) :
    (xorAll width blocks).length = width := by
  simp [xorAll]

theorem xorAll_concat (blocks : List Octets) (h : block.length = width) :
    xorAll width (blocks ++ [block]) = (xorAll width blocks).xor block := by
  apply List.ext_getElem
  · simp [h]
  · intro place hplace _
    have hblock : place < block.length := by
      simpa [h] using hplace
    simp [xorAll, xor, hblock]

theorem xorAll_singleton (h : block.length = width) : xorAll width [block] = block := by
  apply List.ext_getElem
  · simp [h]
  · intro place _ hplace
    simp [xorAll, hplace]

end Octets

namespace Hmac

open Octets (ofString xorAll)

/-- The keyed digests that are taken one of the other, by their number.  In the place of number zero
stands what the first is taken of: the salt, followed by the number one in four octets. -/
def digestAt (password salt : Octets) : Nat → Octets
  | 0 => salt ++ [0, 0, 0, 1]
  | k + 1 => sha256 password (digestAt password salt k)

/-- The exclusive or of the first `count` keyed digests. -/
def sumTo (password salt : Octets) (count : Nat) : Octets :=
  xorAll 32 ((List.range' 1 count).map (digestAt password salt))

/-- The keys and messages of the first `count` keyed digests. -/
def askedTo (password salt : Octets) (count : Nat) : List (Octets × Octets) :=
  (List.range count).map fun k => (password, digestAt password salt k)

/-- Takes a keyed digest, and notes the key and the message. -/
def noting (key message : Octets) : StateM (List (Octets × Octets)) Octets := do
  modify (· ++ [(key, message)])
  return sha256 key message

variable (password salt : Octets)

theorem length_digestAt (k : Nat) : (digestAt password salt (k + 1)).length = 32 :=
  length_sha256 _ _

theorem sumTo_one : sumTo password salt 1 = digestAt password salt 1 :=
  Octets.xorAll_singleton (length_digestAt password salt 0)

theorem sumTo_succ (count : Nat) :
    sumTo password salt (count + 1) =
      (sumTo password salt count).xor (digestAt password salt (count + 1)) := by
  rw [sumTo, List.range'_1_concat, List.map_append, Nat.add_comm 1 count]
  exact Octets.xorAll_concat _ (length_digestAt password salt count)

theorem askedTo_succ (count : Nat) :
    askedTo password salt (count + 1) =
      askedTo password salt count ++ [(password, digestAt password salt count)] := by
  rw [askedTo, List.range_succ, List.map_append]
  rfl

/-- The rounds of the loop that follow the first `count` keyed digests, with the notes of those. -/
def stretchAfter (rounds count : Nat) : Octets × List (Octets × Octets) :=
  ((stretch noting password rounds (digestAt password salt count) (sumTo password salt count)).run
    (askedTo password salt count)).run

theorem stretchAfter_succ (rounds count : Nat) :
    stretchAfter password salt (rounds + 1) count =
      stretchAfter password salt rounds (count + 1) := by
  rw [stretchAfter, stretchAfter, sumTo_succ, askedTo_succ]
  rfl

theorem stretchAfter_eq (rounds count : Nat) :
    stretchAfter password salt rounds count =
      (sumTo password salt (count + rounds), askedTo password salt (count + rounds)) := by
  induction rounds generalizing count with
  | zero => rfl
  | succ rounds ih => rw [stretchAfter_succ, ih, Nat.add_right_comm, Nat.add_assoc]

theorem run_saltedWith (rounds : Nat) :
    ((saltedWith noting password salt (rounds + 1)).run []).run =
      (sumTo password salt (rounds + 1), askedTo password salt (rounds + 1)) := by
  -- The loop begins with the first digest, both as the last one and as the sum.
  have hfirst : ((saltedWith noting password salt (rounds + 1)).run []).run =
      stretchAfter password salt rounds 1 := by
    rw [stretchAfter, sumTo_one]
    rfl
  rw [hfirst, stretchAfter_eq, Nat.add_comm]

/-! Taking notes does not change what comes out. -/

theorem fst_run_stretch (key : Octets) (rounds : Nat) (last total : Octets)
    (asked : List (Octets × Octets)) :
    ((stretch noting key rounds last total).run asked).run.1 =
      Id.run (stretch (fun key message => pure (sha256 key message)) key rounds last total) := by
  induction rounds generalizing last total asked with
  | zero => rfl
  | succ rounds ih => exact ih _ _ _

theorem fst_run_saltedWith (iterations : Nat) :
    ((saltedWith noting password salt iterations).run []).run.1 =
      salted password salt iterations :=
  fst_run_stretch _ _ _ _ _

/-- **A salted password is the exclusive or of as many keyed digests as there are iterations.**  The
first is that of the salt followed by the number one, every other one that of the digest before, and
just these are taken, each of them once. -/
theorem salted_exact {iterations : Nat} (h : 0 < iterations) :
    salted password salt iterations =
        xorAll 32 ((List.range' 1 iterations).map (digestAt password salt)) ∧
      (salted password salt iterations).length = 32 ∧
      ((saltedWith noting password salt iterations).run []).run =
        (salted password salt iterations,
          (List.range iterations).map fun k => (password, digestAt password salt k)) ∧
      ((saltedWith noting password salt iterations).run []).run.2.length = iterations := by
  obtain ⟨rounds, rfl⟩ : ∃ rounds, iterations = rounds + 1 := Nat.exists_eq_add_one.mpr h
  have hrun := run_saltedWith password salt rounds
  have hsum : salted password salt (rounds + 1) = sumTo password salt (rounds + 1) := by
    rw [← fst_run_saltedWith, hrun]
  refine ⟨hsum, ?_, ?_, ?_⟩
  · rw [hsum, sumTo, Octets.length_xorAll]
  · rw [hrun, hsum]
    rfl
  · rw [hrun, askedTo, List.length_map, List.length_range]

theorem salted_exact_twice :
    let password := ofString "pencil"
    let salt : Octets := [0x5b, 0x6d, 0x99]
    let first := sha256 password [0x5b, 0x6d, 0x99, 0, 0, 0, 1]
    let second := sha256 password first
    0 < 2 ∧ salted password salt 2 = xorAll 32 [first, second] ∧
      (salted password salt 2).length = 32 ∧
      ((saltedWith noting password salt 2).run []).run =
        (salted password salt 2,
          [(password, [0x5b, 0x6d, 0x99, 0, 0, 0, 1]), (password, first)]) ∧
      ((saltedWith noting password salt 2).run []).run.2.length = 2 := by
  intro password salt first second
  have hpos : 0 < 2 := by decide
  obtain ⟨hsum, hlength, hrun, hcount⟩ := salted_exact password salt hpos
  exact ⟨hpos, hsum, hlength, hrun, hcount⟩

end Hmac

end PgFrontend
