import PgFrontend.Proofs.Octets.Hex
import PgFrontend.Value.Bytea
/-!
# Reading binary literals

What a literal denotes: the marker, and then digits of either case for the octets.  Just these
literals are parsed, and any other run of octets is a fault of the type `bytea`.
-/

namespace PgFrontend.Bytea

open Octets

/-- A literal denotes octets. -/
def Denotes (literal octets : Octets) : Prop :=
  ∃ digits, literal = marker ++ digits ∧ Hex.Denotes digits octets

variable {literal octets : Octets}

theorem parse_marked (digits : Octets) :
    parse (marker ++ digits) = match Hex.decode digits with
      | .error flaw => .error (.decode .bytea (.digits flaw))
      | .ok octets => .ok octets := rfl

theorem parse_of_unmarked (h : ∀ digits, literal ≠ marker ++ digits) :
    parse literal = .error (.decode .bytea .missingMarker) := by
  unfold parse
  split
  next digits => exact absurd rfl (h digits)
  next => rfl

theorem parse_eq_ok_iff : parse literal = .ok octets ↔ Denotes literal octets := by
  constructor
  · intro h
    by_cases hmarked : ∃ digits, literal = marker ++ digits
    · obtain ⟨digits, rfl⟩ := hmarked
      rw [parse_marked] at h
      split at h
      · cases h
      next found hdecode =>
        cases h
        exact ⟨digits, rfl, Hex.decode_eq_ok_iff.mp hdecode⟩
    · rw [parse_of_unmarked fun digits heq => hmarked ⟨digits, heq⟩] at h
      cases h
  · rintro ⟨digits, rfl, hdigits⟩
    rw [parse_marked, Hex.decode_eq_ok_iff.mpr hdigits]

theorem parse_eq_error {fault : Fault} (h : parse literal = .error fault) :
    ∃ cause, fault = .decode .bytea cause := by
  unfold parse at h
  split at h
  · split at h
    · cases h
      exact ⟨_, rfl⟩
    · cases h
  · cases h
    exact ⟨_, rfl⟩

theorem parse_marker_append (s : Octets) : parse (marker ++ Hex.encode s) = .ok s :=
  parse_eq_ok_iff.mpr ⟨_, rfl, Hex.denotes_encode s⟩

/-- Writing what a literal denotes gives the literal in lower case. -/
theorem Denotes.written_eq (h : Denotes literal octets) :
    marker ++ Hex.encode octets = literal.map Hex.lower := by
  obtain ⟨digits, rfl, hdigits⟩ := h
  rw [hdigits.encode_eq, List.map_append]
  rfl

end PgFrontend.Bytea
