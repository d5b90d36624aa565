/-!
# Octets

Runs of octets, the form of everything that crosses the wire, and the three kinds of field that
messages are made of: unsigned integers with the most significant octet first, fields of a known
size, and texts that end at a zero octet.

Each reader returns what it read together with the octets that follow, and each has a lemma that
says how the two make up its input.
-/

namespace PgFrontend

abbrev Octets := List UInt8

namespace Octets

def ofChars (cs : List Char) : Octets :=
  cs.flatMap String.utf8EncodeChar

def ofString (s : String) : Octets :=
  ofChars s.toList

theorem ofChars_append (cs ds : List Char) : ofChars (cs ++ ds) = ofChars cs ++ ofChars ds := by
  simp [ofChars]

/-- The `width` low octets of a number, the most significant first. -/
def bigEndian : Nat → Nat → Octets
  | 0, _ => []
  | width + 1, n => bigEndian width (n / 256) ++ [UInt8.ofNat n]

@[simp] theorem length_bigEndian (width n : Nat) : (bigEndian width n).length = width := by
  induction width generalizing n with
  | zero => rfl
  | succ width ih => simp [bigEndian, ih]

/-- The number whose octets these are, the most significant first. -/
def toNat (s : Octets) : Nat :=
  s.foldl (fun n b => n * 256 + b.toNat) 0

@[simp] theorem toNat_nil : toNat [] = 0 := rfl

theorem toNat_concat (s : Octets) (b : UInt8) : toNat (s ++ [b]) = toNat s * 256 + b.toNat := by
  simp [toNat]

theorem toNat_bigEndian_four (n : Nat) : toNat (bigEndian 4 n) = n % UInt32.size := by
  simp only [bigEndian, toNat_concat, toNat_nil, UInt8.toNat_ofNat', UInt32.size]
  omega

theorem bigEndian_toNat (s : Octets) : bigEndian s.length (toNat s) = s := by
  have flipped (r : Octets) : bigEndian r.reverse.length (toNat r.reverse) = r.reverse := by
    induction r with
    | nil => rfl
    | cons b r ih =>
        have high : (toNat r.reverse * 256 + b.toNat) / 256 = toNat r.reverse := by
          have := b.toNat_lt
          omega
        rw [List.reverse_cons, List.length_append, List.length_singleton, bigEndian, toNat_concat,
          high, ih]
        simp
  simpa using flipped s.reverse

def field? (size : Nat) (s : Octets) : Option (Octets × Octets) :=
  if (s.take size).length = size then some (s.take size, s.drop size) else none

theorem field?_append {f : Octets} {size : Nat} (r : Octets) (h : f.length = size) :
    field? size (f ++ r) = some (f, r) := by
  subst h
  simp [field?]

theorem field?_eq_some {size : Nat} {s f r : Octets} (h : field? size s = some (f, r)) :
    s = f ++ r ∧ f.length = size := by
  unfold field? at h
  split at h
  · cases h
    exact ⟨(List.take_append_drop ..).symm, ‹_›⟩
  · cases h

theorem field?_eq_none_iff {size : Nat} {s : Octets} : field? size s = none ↔ s.length < size := by
  have hlength : (s.take size).length = min size s.length := List.length_take
  unfold field?
  split
  next hwhole => exact iff_of_false nofun (by omega)
  next hshort => exact iff_of_true rfl (by omega)

/-- The octets before the first zero octet and those after it, if there is one. -/
def cstring? : Octets → Option (Octets × Octets)
  | [] => none
  | b :: s => if b = 0 then some ([], s) else (cstring? s).map fun (t, r) => (b :: t, r)

theorem cstring?_eq_some {s t r : Octets} (h : cstring? s = some (t, r)) :
    s = t ++ 0 :: r ∧ 0 ∉ t := by
  induction s generalizing t with
  | nil => cases h
  | cons b s ih =>
      unfold cstring? at h
      split at h
      next hb => cases h; exact ⟨by simp [hb], by simp⟩
      next hb =>
        obtain ⟨⟨t', r'⟩, hs, he⟩ := Option.map_eq_some_iff.1 h
        cases he
        obtain ⟨rfl, ht⟩ := ih hs
        exact ⟨rfl, by simpa [ht] using Ne.symm hb⟩

theorem cstring?_append {t : Octets} (r : Octets) (h : 0 ∉ t) :
    cstring? (t ++ 0 :: r) = some (t, r) := by
  induction t with
  | nil => simp [cstring?]
  | cons b t ih =>
      simp only [List.mem_cons, not_or] at h
      simp [cstring?, ih h.2, Ne.symm h.1]

theorem cstring?_eq_none_iff {s : Octets} : cstring? s = none ↔ 0 ∉ s := by
  induction s with
  | nil => simp [cstring?]
  | cons b s ih =>
      by_cases hb : b = 0
      · simp [cstring?, hb]
      · simp [cstring?, hb, ih, Ne.symm hb]

theorem cstring?_length_lt {s t r : Octets} (h : cstring? s = some (t, r)) :
    r.length < s.length := by
  rw [(cstring?_eq_some h).1]
  simp
  omega

/-- The octets with those from `start` on overwritten by a field. -/
def overwrite (start : Nat) (field s : Octets) : Octets :=
  s.take start ++ field ++ s.drop (start + field.length)

theorem overwrite_append {s old field t : Octets} (h : old.length = field.length) :
    overwrite s.length field (s ++ (old ++ t)) = s ++ (field ++ t) := by
  rw [overwrite, List.take_left, List.drop_length_add_append, ← h, List.drop_left,
    List.append_assoc]

/-- A run of octets cut into pieces of at most `size` octets each; one piece if `size` is zero. -/
def cut (size : Nat) (s : Octets) : List Octets :=
  if 0 < size ∧ size < s.length then s.take size :: cut size (s.drop size) else [s]
termination_by s.length
decreasing_by simp; omega

end Octets

end PgFrontend
