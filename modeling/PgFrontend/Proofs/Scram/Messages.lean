import PgFrontend.Auth.Scram
/-!
# What a SCRAM client takes

When the client takes each of the server's messages, in terms of the messages' attributes.  The
equivalences stand for the client's checks from here on, both where a message is known to have been
taken and where it has to be shown that it will be.
-/

namespace PgFrontend.Scram

open Octets

theorem attribute?_eq_some_iff {letter : Char} {part value : List Char} :
    attribute? letter part = some value ↔ part = letter :: '=' :: value := by
  constructor
  · intro h
    unfold attribute? at h
    split at h
    next c rest =>
      split at h
      next hc => rw [hc, Option.some.inj h]
      · cases h
    · cases h
  · rintro rfl
    simp [attribute?]

/-- A message has no attribute with a letter exactly if none of its parts begins like one. -/
theorem values_eq_nil_iff {letter : Char} {message : List Char} :
    values letter message = [] ↔ ∀ part ∈ cutAt ',' message, ¬[letter, '='] <+: part := by
  rw [values, List.filterMap_eq_nil_iff]
  refine forall₂_congr fun part _ => ?_
  rw [Option.eq_none_iff_forall_ne_some]
  constructor
  · rintro h ⟨value, rfl⟩
    exact h value (attribute?_eq_some_iff.mpr rfl)
  · intro h value hvalue
    exact h ⟨value, (attribute?_eq_some_iff.mp hvalue).symm⟩

/-- The attributes that the client looks at in the server's first message. -/
structure ServerFirst.IsRead (asked : ServerFirst) (message : List Char) : Prop where
  nonce : (values 'r' message).getLast? = some asked.nonce
  salt : (values 's' message).getLast? = some asked.salt
  iterations : ∃ digits, (values 'i' message).getLast? = some digits ∧
    word32? digits = some asked.iterations
  pos : 0 < asked.iterations

theorem ServerFirst.parse_eq_ok_iff {message : List Char} {asked : ServerFirst} :
    ServerFirst.parse message = .ok asked ↔ asked.IsRead message := by
  unfold ServerFirst.parse
  constructor
  · intro h
    split at h
    next nonce hnonce =>
      split at h
      next salt hsalt =>
        split at h
        next iterations hiterations =>
          cases h
          obtain ⟨hword, hpos⟩ := Option.filter_eq_some_iff.mp hiterations
          exact ⟨hnonce, hsalt, Option.bind_eq_some_iff.mp hword, of_decide_eq_true hpos⟩
        · cases h
      · cases h
    · cases h
  · rintro ⟨hnonce, hsalt, hiterations, hpos⟩
    have hfilter : (some asked.iterations).filter (0 < ·) = some asked.iterations := by
      simp [hpos]
    rw [hnonce, hsalt, Option.bind_eq_some_iff.mpr hiterations, hfilter]
    rfl

/-- The client's last message, with the side after it, by what the server asks for and the salt that
this comes to. -/
def finalReply (s : Scram) (firstBare serverFirst : List Char) (asked : ServerFirst)
    (salt : Octets) : ClientMessage × Scram :=
  let signed := authMessage firstBare serverFirst asked.nonce
  let salted := Hmac.salted (ofString s.password) salt asked.iterations
  let data := ofChars (finalWithoutProof asked.nonce ++ ",p=".toList) ++
    Base64.encode (proof salted signed)
  (.saslResponse data, { s with state := .finalSent signed salted })

theorem final_eq_ok_iff {s : Scram} {firstBare serverFirst : List Char}
    {r : ClientMessage × Scram} :
    s.final firstBare serverFirst = .ok r ↔
      ∃ asked salt, asked.IsRead serverFirst ∧ s.nonce.toList <+: asked.nonce ∧
        Base64.decode (ofChars asked.salt) = .ok salt ∧
        r = s.finalReply firstBare serverFirst asked salt := by
  unfold final
  simp only [bind, Except.bind]
  constructor
  · intro h
    split at h
    · cases h
    next asked hasked =>
      split at h
      · cases h
      next hnonce =>
        split at h
        · cases h
        next salt hsalt =>
          cases h
          have hbegins : s.nonce.toList <+: asked.nonce := by simpa using hnonce
          exact ⟨asked, salt, ServerFirst.parse_eq_ok_iff.mp hasked, hbegins, hsalt, rfl⟩
  · rintro ⟨asked, salt, hasked, hnonce, hsalt, rfl⟩
    rw [ServerFirst.parse_eq_ok_iff.mpr hasked]
    simp only [List.isPrefixOf_iff_prefix.mpr hnonce, Bool.not_true, Bool.false_eq_true, if_false,
      hsalt]
    rfl

theorem verify_eq_ok_iff {signed salted : Octets} {serverFinal : List Char} :
    verify signed salted serverFinal = .ok () ↔
      values 'e' serverFinal = [] ∧ ∃ value, (values 'v' serverFinal).head? = some value ∧
        Base64.decode (ofChars (trimBlanks value)) = .ok (serverSignature salted signed) := by
  unfold verify
  dsimp only
  constructor
  · intro h
    split at h
    · cases h
    next hnone =>
      have herror : values 'e' serverFinal = [] :=
        List.head?_eq_none_iff.mp (Option.eq_none_iff_forall_ne_some.mpr hnone)
      split at h
      next value hvalue =>
        split at h
        · cases h
        next signature hsignature =>
          split at h
          · cases h
          next hequal => exact ⟨herror, value, hvalue, Decidable.not_not.mp hequal ▸ hsignature⟩
      · cases h
  · rintro ⟨herror, value, hvalue, hsignature⟩
    simp [herror, hvalue, hsignature, pure, Except.pure]

end PgFrontend.Scram
