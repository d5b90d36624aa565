import PgFrontend.Value.Registry
/-!
# Nulls next to values of their kind

A parameter is a value or the null of a kind of values, and a registry looks for the codec of each
in a way of its own: a value is encoded by the first codec that accepts it, and the null is that of
the first codec of the kind.  `find?_no_later` says how the two searches are related, and
`encodeNull_declares` what comes of it: the null is declared as the values of its kind are unless
some codec of that kind, which does not accept the value, is asked before the one that does.
-/

namespace PgFrontend

/-- What a parameter tells the server about its octets. -/
def Parameter.declared (p : Parameter) : Format × Oid :=
  (p.format, p.oid)

namespace Codec

variable {codec : Codec}

/-- Whether a codec accepts a value and makes a parameter of it. -/
def Encodes (codec : Codec) (value : Value) (p : Parameter) : Prop :=
  codec.canEncode value = true ∧ codec.encode value = .ok p

/-- A codec encodes only values of its own kind, and declares them as it declares its null. -/
structure Consistent (codec : Codec) : Prop where
  kind_eq : ∀ value p, codec.Encodes value p → value.kind = codec.kind
  declared_eq : ∀ value p, codec.Encodes value p → p.declared = codec.encodeNull.declared

/-- Whether a codec accepts no value at all. -/
def DecodeOnly (codec : Codec) : Prop :=
  ∀ value, codec.canEncode value = false

theorem DecodeOnly.consistent (h : codec.DecodeOnly) : codec.Consistent := by
  have hnever (value : Value) (p : Parameter) : ¬codec.Encodes value p := by
    rintro ⟨haccepts, -⟩
    cases (h value).symm.trans haccepts
  exact ⟨fun value p hencodes => absurd hencodes (hnever value p),
    fun value p hencodes => absurd hencodes (hnever value p)⟩

theorem text_consistent : text.Consistent := by
  constructor
  · rintro value p ⟨haccepts, -⟩
    exact of_decide_eq_true haccepts
  · rintro (s | b) p ⟨-, hencode⟩
    · cases hencode
      rfl
    · cases hencode

theorem blob_consistent : blob.Consistent := by
  constructor
  · rintro value p ⟨haccepts, -⟩
    exact of_decide_eq_true haccepts
  · rintro (s | b) p ⟨-, hencode⟩
    · cases hencode
    · cases hencode
      rfl

end Codec

/-- If the first element with one property has another one too, then the first with the other comes
no later; it is the same element if it has both. -/
theorem find?_no_later {α : Type} {p q : α → Bool} {l : List α} {a : α}
    (h : l.find? p = some a) (hq : q a = true) :
    ∃ b, l.find? q = some b ∧ (p b = true → b = a) := by
  induction l with
  | nil => cases h
  | cons c l ih =>
      cases hpc : p c with
      | true =>
          rw [List.find?_cons_of_pos hpc] at h
          cases h
          exact ⟨_, List.find?_cons_of_pos hq, fun _ => rfl⟩
      | false =>
          rw [List.find?_cons_of_neg (by rw [hpc]; decide)] at h
          cases hqc : q c with
          | true =>
              refine ⟨c, List.find?_cons_of_pos hqc, fun hpc' => ?_⟩
              cases hpc.symm.trans hpc'
          | false =>
              rw [List.find?_cons_of_neg (by rw [hqc]; decide)]
              exact ih h

namespace Registry

variable {r : Registry} {codec : Codec} {value : Value} {p : Parameter}

/-- The registries that ask consistent codecs before the library's own. -/
inductive Extended : Registry → Prop
  | builtin : Extended builtin
  | prepend {r : Registry} {codec : Codec} (hr : r.Extended) (hcodec : codec.Consistent) :
      Extended (r.prepend codec)

theorem Extended.consistent (h : r.Extended) : ∀ codec ∈ r.codecs, codec.Consistent := by
  induction h with
  | builtin =>
      exact List.forall_mem_cons.mpr
        ⟨Codec.blob_consistent, List.forall_mem_singleton.mpr Codec.text_consistent⟩
  | prepend _ hcodec ih => exact List.forall_mem_cons.mpr ⟨hcodec, ih⟩

/-- The codec that encodes a value. -/
def encoder? (r : Registry) (value : Value) : Option Codec :=
  r.codecs.find? (·.canEncode value)

/-- The codec whose null is the null of a kind. -/
def nullCodec? (r : Registry) (kind : ValueKind) : Option Codec :=
  r.codecs.find? (·.kind == kind)

theorem encode_eq_ok (h : r.encode value = .ok p) :
    ∃ encoder ∈ r.codecs, r.encoder? value = some encoder ∧ encoder.Encodes value p := by
  unfold encode at h
  split at h
  · cases h
  next encoder hfound =>
    have haccepts := List.find?_some hfound
    exact ⟨encoder, List.mem_of_find?_eq_some hfound, hfound, haccepts, h⟩

theorem encodeNull_of_some {kind : ValueKind} (h : r.nullCodec? kind = some codec) :
    r.encodeNull kind = .ok codec.encodeNull := by
  have hfound : r.codecs.find? (·.kind == kind) = some codec := h
  rw [encodeNull, hfound]

/-- A codec that accepts no value leaves the encoding of values as it is. -/
theorem encode_prepend_of_decodeOnly (h : codec.DecodeOnly) (r : Registry) (value : Value) :
    (r.prepend codec).encode value = r.encode value := by
  have hpassed : (r.prepend codec).codecs.find? (·.canEncode value) =
      r.codecs.find? (·.canEncode value) :=
    List.find?_cons_of_neg (by rw [h value]; decide)
  rw [encode, encode, hpassed]

/-- The codec that is asked first gives the null of its kind, whether it accepts a value or not. -/
theorem encodeNull_prepend_self (r : Registry) (codec : Codec) :
    (r.prepend codec).encodeNull codec.kind = .ok codec.encodeNull :=
  encodeNull_of_some (List.find?_cons_of_pos (beq_self_eq_true codec.kind))

/-- **How the null of a kind is declared, next to a value of the kind.**  For every registry that
asks any consistent codecs before the library's own, and every value that it encodes: the kind of
the value has a null.  The value is declared as the null of the codec that encodes it, and the null
of the kind is that of the first codec of the kind, which is the same codec if it accepts the value.
So the two are declared alike unless that first codec does not accept the value; and any codec of
the kind that accepts no value at all, when it is asked before the others, gives its own null while
the value is still encoded as before. -/
theorem encodeNull_declares (hr : r.Extended) (h : r.encode value = .ok p) :
    ∃ first encoder, r.nullCodec? value.kind = some first ∧ r.encoder? value = some encoder ∧
      r.encodeNull value.kind = .ok first.encodeNull ∧
      p.declared = encoder.encodeNull.declared ∧
      (first.canEncode value = true → first.encodeNull.declared = p.declared) ∧
      ∀ codec : Codec, codec.DecodeOnly → codec.kind = value.kind →
        (r.prepend codec).Extended ∧ (r.prepend codec).encode value = .ok p ∧
        (r.prepend codec).encodeNull value.kind = .ok codec.encodeNull := by
  obtain ⟨encoder, hmem, hencoder, hencodes⟩ := encode_eq_ok h
  obtain ⟨hkind, hdeclared⟩ := hr.consistent encoder hmem
  obtain ⟨first, hfirst, hboth⟩ := find?_no_later (q := (·.kind == value.kind)) hencoder
    (by rw [hkind value p hencodes, beq_self_eq_true])
  refine ⟨first, encoder, hfirst, hencoder, encodeNull_of_some hfirst, hdeclared value p hencodes,
    fun haccepts => ?_, fun codec hrefuses hcodec => ⟨hr.prepend hrefuses.consistent, ?_, ?_⟩⟩
  · rw [hboth haccepts, hdeclared value p hencodes]
  · rw [encode_prepend_of_decodeOnly hrefuses, h]
  · rw [← hcodec]
    exact encodeNull_prepend_self r codec

/-- A codec that decodes every column of a text target to one text, and encodes nothing. -/
def overriding : Codec :=
  .fixed { kind := .text, target := some .text, answer := .ok (.text "override") }

theorem overriding_decodeOnly : overriding.DecodeOnly :=
  fun _ => rfl

/-- With the library's own codecs a text and the null of texts are both of type `varchar`. -/
theorem encodeNull_declares_varchar :
    ∃ p null, builtin.encode (.text "x") = .ok p ∧ builtin.encodeNull .text = .ok null ∧
      null.declared = p.declared ∧ p.declared = (.text, .varchar) := by
  have hencode : builtin.encode (.text "x") =
      .ok (.ready .text .varchar (Octets.ofString "x")) := rfl
  obtain ⟨first, encoder, hfirst, -, hnull, -, halike, -⟩ := encodeNull_declares .builtin hencode
  have htext : first = .text := (Option.some.inj hfirst).symm
  exact ⟨_, _, hencode, hnull, halike (by rw [htext]; rfl), rfl⟩

/-- A codec for texts that encodes nothing, asked before the others: the null of texts is no longer
declared as a text is. -/
theorem null_undeclared_by_decodeOnly :
    (builtin.prepend overriding).Extended ∧
      ∃ p null, (builtin.prepend overriding).encode (.text "x") = .ok p ∧
        (builtin.prepend overriding).encodeNull (Value.text "x").kind = .ok null ∧
        null.format ≠ p.format ∧ null.oid ≠ p.oid := by
  refine ⟨.prepend .builtin overriding_decodeOnly.consistent, _, _, rfl, rfl, ?_, ?_⟩
  · decide
  · decide

end Registry

end PgFrontend
