import PgFrontend.Octets.Hex
import PgFrontend.Proofs.Fault
/-!
# Digits read and written

What a run of hexadecimal digits denotes, as a grammar: pairs of digits of either case, the high one
first.  `decode_eq_ok_iff` says that just these runs are decoded, to what they denote;
`Denotes.encode_eq` that encoding what they denote gives the same digits in lower case; and
`decode_encode` that decoding undoes encoding.
-/

namespace PgFrontend.Hex

open Octets

/-- The lower-case digits in the order of their values. -/
def lowerDigits : Octets := ofString "0123456789abcdef"

def upperDigits : Octets := ofString "0123456789ABCDEF"

/-- A digit of either case, and its value. -/
def IsDigit (d : UInt8) (n : Nat) : Prop :=
  lowerDigits[n]? = some d ∨ upperDigits[n]? = some d

instance (d : UInt8) (n : Nat) : Decidable (IsDigit d n) :=
  inferInstanceAs (Decidable (_ ∨ _))

/-- A run of digits denotes the octets whose values its pairs have. -/
inductive Denotes : Octets → Octets → Prop
  | nil : Denotes [] []
  | pair {high low : UInt8} {h l : Nat} {digits octets : Octets} (hhigh : IsDigit high h)
      (hlow : IsDigit low l) (hrest : Denotes digits octets) :
      Denotes (high :: low :: digits) (UInt8.ofNat (16 * h + l) :: octets)

/-- The digits from `A` to `F` in lower case, and every other octet as it is. -/
def lower (d : UInt8) : UInt8 :=
  if 0x41 ≤ d ∧ d ≤ 0x46 then d + 0x20 else d

/-! ## One octet -/

theorem ofNat_high (b : UInt8) : UInt8.ofNat (b.toNat / 16) = b / 16 := by
  have hlt := b.toNat_lt
  apply UInt8.toNat_inj.mp
  simp
  omega

theorem ofNat_low (b : UInt8) : UInt8.ofNat (b.toNat % 16) = b % 16 := by
  apply UInt8.toNat_inj.mp
  simp
  omega

theorem lowerDigits_getElem? : ∀ n < 16, lowerDigits[n]? = some (digit (UInt8.ofNat n)) := by
  decide

theorem lowerDigits_high (b : UInt8) : lowerDigits[b.toNat / 16]? = some (digit (b / 16)) := by
  have hlt := b.toNat_lt
  rw [lowerDigits_getElem? _ (by omega), ofNat_high]

theorem lowerDigits_low (b : UInt8) : lowerDigits[b.toNat % 16]? = some (digit (b % 16)) := by
  rw [lowerDigits_getElem? _ (by omega), ofNat_low]

theorem isDigit_high (b : UInt8) : IsDigit (digit (b / 16)) (b.toNat / 16) :=
  .inl (lowerDigits_high b)

theorem isDigit_low (b : UInt8) : IsDigit (digit (b % 16)) (b.toNat % 16) :=
  .inl (lowerDigits_low b)

theorem high_low (b : UInt8) : UInt8.ofNat (16 * (b.toNat / 16) + b.toNat % 16) = b := by
  rw [Nat.div_add_mod, UInt8.ofNat_toNat]

theorem ofNat_pair (h l : Nat) :
    UInt8.ofNat (16 * h + l) = UInt8.ofNat h * 16 + UInt8.ofNat l := by
  rw [UInt8.ofNat_add, UInt8.ofNat_mul, UInt8.mul_comm]
  rfl

/-! ## One digit -/

theorem IsDigit.lt {d : UInt8} {n : Nat} (h : IsDigit d n) : n < 16 := by
  rcases h with h | h
  · exact (List.getElem?_eq_some_iff.mp h).1
  · exact (List.getElem?_eq_some_iff.mp h).1

theorem digits_map_value? : ∀ n < 16,
    lowerDigits[n]?.map value? = some (some (UInt8.ofNat n)) ∧
      upperDigits[n]?.map value? = some (some (UInt8.ofNat n)) := by
  decide

theorem digits_map_lower : ∀ n < 16,
    lowerDigits[n]?.map lower = some (digit (UInt8.ofNat n)) ∧
      upperDigits[n]?.map lower = some (digit (UInt8.ofNat n)) := by
  decide

theorem isDigit_of_all_values : ∀ n < 256,
    (value? (UInt8.ofNat n)).all fun v => IsDigit (UInt8.ofNat n) v.toNat := by
  decide +kernel

/-- What is the same for the digits of both cases is so for the digit. -/
theorem IsDigit.map_eq {α : Type} {f : UInt8 → α} {x : α} {d : UInt8} {n : Nat} (h : IsDigit d n)
    (hboth : lowerDigits[n]?.map f = some x ∧ upperDigits[n]?.map f = some x) : f d = x := by
  obtain ⟨hlower, hupper⟩ := hboth
  rcases h with h | h
  · rw [h, Option.map_some] at hlower
    exact Option.some.inj hlower
  · rw [h, Option.map_some] at hupper
    exact Option.some.inj hupper

theorem IsDigit.value?_eq {d : UInt8} {n : Nat} (h : IsDigit d n) :
    value? d = some (UInt8.ofNat n) :=
  h.map_eq (digits_map_value? n h.lt)

theorem IsDigit.lower_eq {d : UInt8} {n : Nat} (h : IsDigit d n) :
    lower d = digit (UInt8.ofNat n) :=
  h.map_eq (digits_map_lower n h.lt)

theorem isDigit_of_value? {d v : UInt8} (h : value? d = some v) : IsDigit d v.toNat := by
  have hall := isDigit_of_all_values d.toNat d.toNat_lt
  rw [UInt8.ofNat_toNat, h] at hall
  simpa using hall

/-! ## Runs of digits -/

theorem denotes_encode (s : Octets) : Denotes (encode s) s := by
  induction s with
  | nil => exact .nil
  | cons b s ih =>
      have hpair := Denotes.pair (isDigit_high b) (isDigit_low b) ih
      rwa [high_low] at hpair

theorem Denotes.length_eq {digits s : Octets} (h : Denotes digits s) :
    digits.length = 2 * s.length := by
  induction h with
  | nil => rfl
  | pair hhigh hlow hrest ih =>
      simp only [List.length_cons, ih]
      omega

theorem Denotes.decodePairs_eq {digits s : Octets} (h : Denotes digits s) (start : Nat) :
    decodePairs start digits = .ok s := by
  induction h generalizing start with
  | nil => rfl
  | @pair high low h l digits octets hhigh hlow hrest ih =>
      simp only [decodePairs, hhigh.value?_eq, hlow.value?_eq, ih, ofNat_pair]
      rfl

theorem denotes_of_decodePairs {start : Nat} {digits s : Octets}
    (h : decodePairs start digits = .ok s) : Denotes digits s := by
  fun_induction decodePairs start digits generalizing s with
  | case1 =>
      cases h
      exact .nil
  | case2 => cases h
  | case3 => cases h
  | case4 => cases h
  | case5 start high low rest h' l hlow hhigh ih =>
      obtain ⟨octets, hrest, rfl⟩ := map_eq_ok_iff.mp h
      have hpair := Denotes.pair (isDigit_of_value? hhigh) (isDigit_of_value? hlow) (ih hrest)
      rwa [ofNat_pair, UInt8.ofNat_toNat, UInt8.ofNat_toNat] at hpair

/-- Decoding accepts just the runs of digit pairs. -/
theorem decode_eq_ok_iff {digits s : Octets} : decode digits = .ok s ↔ Denotes digits s := by
  unfold decode
  constructor
  · intro h
    split at h
    · cases h
    · exact denotes_of_decodePairs h
  · intro h
    rw [if_neg (by rw [h.length_eq]; omega)]
    exact h.decodePairs_eq 0

/-- Decoding gives back the octets that were encoded. -/
theorem decode_encode (s : Octets) : decode (encode s) = .ok s :=
  decode_eq_ok_iff.mpr (denotes_encode s)

theorem Denotes.encode_eq {digits s : Octets} (h : Denotes digits s) :
    encode s = digits.map lower := by
  induction h with
  | nil => rfl
  | @pair high low h l digits octets hhigh hlow hrest ih =>
      have hh := hhigh.lt
      have hl := hlow.lt
      have htoNat : (UInt8.ofNat (16 * h + l)).toNat = 16 * h + l :=
        UInt8.toNat_ofNat_of_lt' (show _ < 256 by omega)
      have hhalf : UInt8.ofNat (16 * h + l) / 16 = UInt8.ofNat h := by
        rw [← ofNat_high, htoNat]
        congr 1
        omega
      have hother : UInt8.ofNat (16 * h + l) % 16 = UInt8.ofNat l := by
        rw [← ofNat_low, htoNat]
        congr 1
        omega
      have hcons : encode (UInt8.ofNat (16 * h + l) :: octets) =
          digit (UInt8.ofNat (16 * h + l) / 16) :: digit (UInt8.ofNat (16 * h + l) % 16) ::
            encode octets := rfl
      rw [hcons, hhalf, hother, ih, List.map_cons, List.map_cons, hhigh.lower_eq, hlow.lower_eq]

/-- The two digits of an octet stand where the digits of those before it end. -/
theorem getElem?_encode {s : Octets} {i : Nat} {b : UInt8} (h : s[i]? = some b) :
    (encode s)[2 * i]? = lowerDigits[b.toNat / 16]? ∧
      (encode s)[2 * i + 1]? = lowerDigits[b.toNat % 16]? := by
  rw [lowerDigits_high, lowerDigits_low]
  induction s generalizing i with
  | nil => cases h
  | cons c s ih =>
      cases i with
      | zero =>
          cases h
          exact ⟨rfl, rfl⟩
      | succ i => exact ih h

end PgFrontend.Hex
