import PgFrontend.Text.Split
/-!
# Putting a text together and cutting it again

Cutting at a separator gives back the pieces that were joined with it, and the number that a text of
decimal digits stands for is the one it was written from.
-/

namespace PgFrontend

variable {separator : Char} {piece : List Char}

theorem cutAt_eq_singleton (h : separator ∉ piece) : cutAt separator piece = [piece] := by
  induction piece with
  | nil => rfl
  | cons c piece ih =>
      rw [List.mem_cons, not_or] at h
      rw [cutAt, if_neg (Ne.symm h.1), ih h.2]

theorem cutAt_append (h : separator ∉ piece) (rest : List Char) :
    cutAt separator (piece ++ separator :: rest) = piece :: cutAt separator rest := by
  induction piece with
  | nil => rw [List.nil_append, cutAt, if_pos rfl]
  | cons c piece ih =>
      rw [List.mem_cons, not_or] at h
      rw [List.cons_append, cutAt, if_neg (Ne.symm h.1), ih h.2]

theorem ofDigits_toDigits (n : Nat) : ofDigits (Nat.toDigits 10 n) = n := by
  have hfold : ofDigits (Nat.toDigits 10 n) = Nat.ofDigitChars 10 (Nat.toDigits 10 n) 0 := by
    rw [ofDigits, Nat.ofDigitChars_eq_foldl]
    simp only [Nat.mul_comm]
    rfl
  rw [hfold, Nat.ofDigitChars_ten_toDigits]

theorem word32?_of_isDigit {digits : List Char} (hne : digits ≠ [])
    (hdigits : ∀ c ∈ digits, c.isDigit = true) (hlt : ofDigits digits < UInt32.size) :
    word32? digits = some (ofDigits digits) := by
  unfold word32?
  dsimp only
  split
  next rest =>
    exact absurd (hdigits '+' (List.mem_cons_self ..)) (by decide)
  · rw [if_pos]
    simp [hne, hlt, List.all_eq_true.mpr hdigits]

theorem word32?_toDigits {n : Nat} (h : n < UInt32.size) :
    word32? (Nat.toDigits 10 n) = some n := by
  have hdigits : ∀ c ∈ Nat.toDigits 10 n, c.isDigit = true := fun c =>
    Nat.isDigit_of_mem_toDigits (by decide) (by decide)
  have hword := word32?_of_isDigit Nat.toDigits_ne_nil hdigits (by rwa [ofDigits_toDigits])
  rwa [ofDigits_toDigits] at hword

theorem comma_not_mem_toDigits (n : Nat) : ',' ∉ Nat.toDigits 10 n := by
  intro hmem
  have hdigit : Char.isDigit ',' = true :=
    Nat.isDigit_of_mem_toDigits (by decide) (by decide) hmem
  exact absurd hdigit (by decide)

end PgFrontend
