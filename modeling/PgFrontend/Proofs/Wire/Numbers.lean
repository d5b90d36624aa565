import PgFrontend.Wire.Payload
/-!
# Numbers in payloads

How the numbers of a message are written, the most significant octet first and a negative one as its
complement, and that the readers of `Payload` undo it, each for every run of octets of its width.
-/

namespace PgFrontend

namespace Octets

def ofUInt32 (n : UInt32) : Octets :=
  bigEndian 4 n.toNat

def ofInt16 (n : Int16) : Octets :=
  bigEndian 2 n.toUInt16.toNat

def ofInt32 (n : Int32) : Octets :=
  bigEndian 4 n.toUInt32.toNat

@[simp] theorem length_ofUInt32 (n : UInt32) : (ofUInt32 n).length = 4 :=
  length_bigEndian 4 _

@[simp] theorem length_ofInt16 (n : Int16) : (ofInt16 n).length = 2 :=
  length_bigEndian 2 _

@[simp] theorem length_ofInt32 (n : Int32) : (ofInt32 n).length = 4 :=
  length_bigEndian 4 _

theorem toNat_bigEndian_two (n : Nat) : toNat (bigEndian 2 n) = n % UInt16.size := by
  simp only [bigEndian, toNat_concat, toNat_nil, UInt8.toNat_ofNat', UInt16.size]
  omega

/-- Octets stand for a number below the one at which writing in so many octets wraps around. -/
theorem toNat_lt_of_mod {s : Octets} {size : Nat} (hpos : 0 < size)
    (hmod : ∀ n, toNat (bigEndian s.length n) = n % size) : toNat s < size :=
  calc
    toNat s = toNat (bigEndian s.length (toNat s)) := by rw [bigEndian_toNat]
    _ = toNat s % size := hmod (toNat s)
    _ < size := Nat.mod_lt _ hpos

theorem toNat_lt_of_length_two {s : Octets} (h : s.length = 2) : toNat s < UInt16.size :=
  toNat_lt_of_mod (by decide) (h ▸ toNat_bigEndian_two)

theorem toNat_lt_of_length_four {s : Octets} (h : s.length = 4) : toNat s < UInt32.size :=
  toNat_lt_of_mod (by decide) (h ▸ toNat_bigEndian_four)

theorem ofNat_toNat_ofUInt32 (n : UInt32) : UInt32.ofNat (toNat (ofUInt32 n)) = n := by
  rw [ofUInt32, toNat_bigEndian_four, Nat.mod_eq_of_lt n.toNat_lt_size, UInt32.ofNat_toNat]

theorem ofUInt32_ofNat_toNat {s : Octets} (h : s.length = 4) :
    ofUInt32 (UInt32.ofNat (toNat s)) = s := by
  rw [ofUInt32, UInt32.toNat_ofNat_of_lt' (toNat_lt_of_length_four h), ← h, bigEndian_toNat]

end Octets

namespace Payload

open Octets

theorem int16_ofInt16 (n : Int16) : int16 (ofInt16 n) = n := by
  rw [int16, ofInt16, toNat_bigEndian_two, Nat.mod_eq_of_lt n.toUInt16.toNat_lt_size,
    UInt16.ofNat_toNat]
  rfl

theorem int32_ofInt32 (n : Int32) : int32 (ofInt32 n) = n := by
  rw [int32, ofInt32, toNat_bigEndian_four, Nat.mod_eq_of_lt n.toUInt32.toNat_lt_size,
    UInt32.ofNat_toNat]
  rfl

theorem ofInt16_int16 {s : Octets} (h : s.length = 2) : ofInt16 (int16 s) = s := by
  have hbits : (int16 s).toUInt16 = UInt16.ofNat (toNat s) := rfl
  rw [ofInt16, hbits, UInt16.toNat_ofNat_of_lt' (toNat_lt_of_length_two h), ← h, bigEndian_toNat]

theorem ofInt32_int32 {s : Octets} (h : s.length = 4) : ofInt32 (int32 s) = s := by
  have hbits : (int32 s).toUInt32 = UInt32.ofNat (toNat s) := rfl
  rw [ofInt32, hbits, UInt32.toNat_ofNat_of_lt' (toNat_lt_of_length_four h), ← h, bigEndian_toNat]

/-! ## Sizes

A number that says how many items or octets follow is not negative.
-/

theorem ofInt16_of_nonneg {n : Int16} (h : ¬n < 0) : ofInt16 n = bigEndian 2 n.toInt.toNat := by
  rw [ofInt16, Int16.toNat_toUInt16_of_le (Int16.not_lt.mp h)]
  rfl

theorem ofInt32_of_nonneg {n : Int32} (h : ¬n < 0) : ofInt32 n = bigEndian 4 n.toInt.toNat := by
  rw [ofInt32, Int32.toNat_toUInt32_of_le (Int32.not_lt.mp h)]
  rfl

theorem toInt_int16_bigEndian {n : Nat} (h : n ≤ 32767) : (int16 (bigEndian 2 n)).toInt = n := by
  have hsigned : (UInt16.ofNat n).toInt16 = Int16.ofNat n := rfl
  rw [int16, toNat_bigEndian_two, Nat.mod_eq_of_lt (by rw [UInt16.size]; omega), hsigned,
    Int16.toInt_ofNat_of_lt (by omega)]

theorem toInt_int32_bigEndian {n : Nat} (h : n ≤ 2147483647) :
    (int32 (bigEndian 4 n)).toInt = n := by
  have hsigned : (UInt32.ofNat n).toInt32 = Int32.ofNat n := rfl
  rw [int32, toNat_bigEndian_four, Nat.mod_eq_of_lt (by rw [UInt32.size]; omega), hsigned,
    Int32.toInt_ofNat_of_lt (by omega)]

end Payload

end PgFrontend
