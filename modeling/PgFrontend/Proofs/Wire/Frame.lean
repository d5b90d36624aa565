import PgFrontend.Wire.Frame
/-!
# Kinds of frames

The letter that a frame's tag stands for.  Definitions of what a frame means look at the letter, so
statements about them do too.
-/

namespace PgFrontend.Frame

/-- The tag of a frame as a letter. -/
def kind (f : Frame) : Char :=
  Char.ofNat f.tag.toNat

theorem toNat_kind (f : Frame) : f.kind.toNat = f.tag.toNat := by
  have hlt := f.tag.toNat_lt
  have hvalid : f.tag.toNat.isValidChar := Or.inl (by omega)
  rw [kind, Char.ofNat, dif_pos hvalid]
  rfl

/-- Distinct tags are distinct letters. -/
theorem kind_eq_iff (f : Frame) (b : UInt8) : f.kind = Char.ofNat b.toNat ↔ f.tag = b := by
  constructor
  · intro hkind
    have hnat := congrArg Char.toNat hkind
    rw [toNat_kind, show (Char.ofNat b.toNat).toNat = b.toNat from toNat_kind ⟨b, []⟩] at hnat
    exact UInt8.toNat_inj.mp hnat
  · rintro rfl
    rfl

end PgFrontend.Frame
