import PgFrontend.Proofs.Fault
import PgFrontend.Value.Registry
/-!
# The order of codecs

A registry asks its codecs in order and takes the first that accepts, so the order can tell only
among codecs that accept the same request: `answer_eq_of_filter_eq`.  A codec is coherent if it
accepts only requests about values of its kind and decodes to such values.  In a registry of coherent
codecs, one for each kind, no request is accepted by two of them, and what is decoded is always of
the kind that was asked for.  The library's own codecs are such a registry.
-/

namespace PgFrontend

namespace Registry

/-- What a registry is asked: to decode a column, to encode a value, or for the null of a kind. -/
inductive Request
  | decode (column : Option Octets) (oid : Oid) (format : Format) (target : ValueKind)
  | encode (value : Value)
  | null (kind : ValueKind)

namespace Request

/-- Whether a codec accepts a request, by what it says beforehand. -/
def acceptedBy : Request → Codec → Bool
  | decode _ oid format target, codec => codec.canDecode format oid target
  | encode value, codec => codec.canEncode value
  | null kind, codec => codec.kind == kind

/-- The kind of value that a request is about. -/
def kind : Request → ValueKind
  | decode _ _ _ target => target
  | encode value => value.kind
  | null kind => kind

end Request

inductive Reply
  | decoded (result : Except Fault (Option Value))
  | encoded (result : Except Fault Parameter)

def answer (r : Registry) : Request → Reply
  | .decode column oid format target => .decoded (r.decode column oid format target)
  | .encode value => .encoded (r.encode value)
  | .null kind => .encoded (r.encodeNull kind)

variable {r s : Registry} {request : Request}

/-! ## Registries in different orders -/

theorem answer_eq_of_find?_eq
    (h : r.codecs.find? request.acceptedBy = s.codecs.find? request.acceptedBy) :
    r.answer request = s.answer request := by
  cases request with
  | decode column oid format target =>
      have hfound : r.codecs.find? (·.canDecode format oid target) =
          s.codecs.find? (·.canDecode format oid target) := h
      simp only [answer, decode, hfound]
  | encode value =>
      have hfound : r.codecs.find? (·.canEncode value) = s.codecs.find? (·.canEncode value) := h
      simp only [answer, encode, hfound]
  | null kind =>
      have hfound : r.codecs.find? (·.kind == kind) = s.codecs.find? (·.kind == kind) := h
      simp only [answer, encodeNull, hfound]

/-- Only the codecs that accept a request matter, in their order. -/
theorem answer_eq_of_filter_eq
    (h : r.codecs.filter request.acceptedBy = s.codecs.filter request.acceptedBy) :
    r.answer request = s.answer request := by
  apply answer_eq_of_find?_eq
  rw [← List.head?_filter, h, List.head?_filter]

/-- No two of the codecs accept the same request. -/
def Unambiguous (r : Registry) : Prop :=
  ∀ request : Request, r.codecs.Pairwise fun first other =>
    ¬(request.acceptedBy first = true ∧ request.acceptedBy other = true)

/-- If at most one codec accepts a request, all orders of the codecs are as good. -/
theorem Unambiguous.answer_eq (hs : s.Unambiguous) (hperm : r.codecs.Perm s.codecs)
    (request : Request) : r.answer request = s.answer request := by
  apply answer_eq_of_filter_eq
  have hfilter := hperm.filter request.acceptedBy
  -- Two accepting codecs would have to be in the same place, so there is at most one of them.
  have hsmall : (s.codecs.filter request.acceptedBy).Pairwise fun _ _ => False :=
    ((hs request).filter _).imp_of_mem fun hfirst hother hapart =>
      hapart ⟨(List.mem_filter.mp hfirst).2, (List.mem_filter.mp hother).2⟩
  exact hfilter.eq_of_pairwise (fun _ _ _ _ hfalse _ => hfalse.elim)
    (hfilter.symm.pairwise hsmall id) hsmall

end Registry

/-! ## Coherent codecs -/

/-- A codec that accepts only requests about its kind of values, and decodes a column to a value of
that kind or fails to decode it. -/
structure Codec.Coherent (codec : Codec) : Prop where
  kind_eq : ∀ request : Registry.Request,
    request.acceptedBy codec = true → request.kind = codec.kind
  decoded_kind : ∀ octets format target value,
    codec.decode octets format target = .ok value → value.kind = codec.kind
  decode_fails : ∀ octets format target,
    FailsAs Fault.isDecode (codec.decode octets format target)

/-- Every value of its kind is taken apart into a type of the application. -/
def TakesKind (α : Type) [FromValue α] : Prop :=
  ∀ value : Value, value.kind = FromValue.kind α → ∃ a : α, FromValue.ofValue value = .ok a

theorem takesKind_string : TakesKind String := by
  rintro (s | b) hkind
  · exact ⟨s, rfl⟩
  · cases hkind

theorem takesKind_blob : TakesKind Blob := by
  rintro (s | b) hkind
  · cases hkind
  · exact ⟨b, rfl⟩

namespace Codec

theorem text_coherent : text.Coherent := by
  constructor
  · rintro (⟨column, oid, format, target⟩ | value | kind) haccepts
    · exact of_decide_eq_true (Bool.and_eq_true_iff.mp haccepts).1
    · exact of_decide_eq_true haccepts
    · exact (eq_of_beq haccepts).symm
  · intro octets format target value h
    simp only [text, decodeText] at h
    split at h
    · cases h
      rfl
    · cases h
  · intro octets format target
    simp only [text, decodeText]
    split
    · exact .ok _
    · exact .error rfl

theorem blob_coherent : blob.Coherent := by
  constructor
  · rintro (⟨column, oid, format, target⟩ | value | kind) haccepts
    · exact of_decide_eq_true (Bool.and_eq_true_iff.mp haccepts).2
    · exact of_decide_eq_true haccepts
    · exact (eq_of_beq haccepts).symm
  · intro octets format target value h
    cases h
    rfl
  · exact fun octets format target => .ok _

end Codec

namespace Registry

variable {r : Registry} {α : Type} [FromValue α]

/-- A registry of coherent codecs. -/
def Coherent (r : Registry) : Prop :=
  ∀ codec ∈ r.codecs, codec.Coherent

theorem Coherent.unambiguous (hr : r.Coherent) (hkinds : (r.codecs.map Codec.kind).Nodup) :
    r.Unambiguous := by
  intro request
  refine (List.pairwise_map.mp hkinds).imp_of_mem fun hfirst hother hne => ?_
  rintro ⟨hacceptsFirst, hacceptsOther⟩
  exact hne (((hr _ hfirst).kind_eq request hacceptsFirst).symm.trans
    ((hr _ hother).kind_eq request hacceptsOther))

variable {column : Option Octets} {oid : Oid} {format : Format} {target : ValueKind}

theorem Coherent.decode_fails (hr : r.Coherent) :
    FailsAs Fault.isDecode (r.decode column oid format target) := by
  unfold decode
  split
  · exact .ok _
  · split
    · exact .error rfl
    next codec hfound =>
      exact ((hr codec (List.mem_of_find?_eq_some hfound)).decode_fails _ _ _).map some

theorem Coherent.decoded_kind {value : Value} (hr : r.Coherent)
    (h : r.decode column oid format target = .ok (some value)) : value.kind = target := by
  cases column with
  | none => cases h
  | some octets =>
      simp only [decode] at h
      split at h
      · cases h
      next codec hfound =>
        obtain ⟨decoded, hdecode, hsome⟩ := map_eq_ok_iff.mp h
        cases hsome
        have hcodec := hr codec (List.mem_of_find?_eq_some hfound)
        have haccepts : (Request.decode (some octets) oid format target).acceptedBy codec = true :=
          List.find?_some hfound
        exact (hcodec.decoded_kind _ _ _ _ hdecode).trans (hcodec.kind_eq _ haccepts).symm

/-- What coherent codecs decode is never of another kind than was asked for. -/
theorem Coherent.decodeAs_fails (hr : r.Coherent) (hα : TakesKind α) :
    FailsAs Fault.isDecode (r.decodeAs α column oid format) := by
  unfold decodeAs
  cases hdecode : r.decode column oid format (FromValue.kind α) with
  | error fault => exact .error (hr.decode_fails fault hdecode)
  | ok decoded =>
      cases decoded with
      | none => exact .ok none
      | some value =>
          obtain ⟨a, ha⟩ := hα value (hr.decoded_kind hdecode)
          show FailsAs Fault.isDecode (FromValue.ofValue value >>= fun a => pure (some a))
          rw [ha]
          exact .ok (some a)

theorem builtin_coherent : builtin.Coherent :=
  List.forall_mem_cons.mpr
    ⟨Codec.blob_coherent, List.forall_mem_singleton.mpr Codec.text_coherent⟩

theorem builtin_unambiguous : builtin.Unambiguous :=
  builtin_coherent.unambiguous (by decide)

end Registry

theorem Fault.exists_of_isDecode {f : Fault} (h : f.isDecode = true) :
    ∃ oid cause, f = .decode oid cause := by
  cases f with
  | decode oid cause => exact ⟨oid, cause, rfl⟩
  | _ => cases h

namespace Registry

/-- **The order of the codecs matters only among those that accept a request.**  Two registries of
the same codecs answer a request alike if the codecs that accept it stand in the same order in both;
a null column is decoded to nothing, whatever the codecs are.  No request is accepted by two of the
library's own codecs, so these may stand in any order, and asking them for a text or for a blob
either succeeds or fails to decode: it never comes to a value of the other kind. -/
theorem order_matters_among_accepting :
    (∀ (request : Request) (r s : Registry), r.codecs.Perm s.codecs →
      r.codecs.filter request.acceptedBy = s.codecs.filter request.acceptedBy →
      r.answer request = s.answer request) ∧
    (∀ (r : Registry) oid format target, r.decode none oid format target = .ok none) ∧
    (∀ request : Request, builtin.codecs.Pairwise fun first other =>
      ¬(request.acceptedBy first = true ∧ request.acceptedBy other = true)) ∧
    (∀ r : Registry, r.codecs.Perm builtin.codecs →
      ∀ request, r.answer request = builtin.answer request) ∧
    (∀ column oid format fault, builtin.decodeAs String column oid format = .error fault →
      ∃ type cause, fault = .decode type cause) ∧
    ∀ column oid format fault, builtin.decodeAs Blob column oid format = .error fault →
      ∃ type cause, fault = .decode type cause := by
  refine ⟨fun request r s _ => answer_eq_of_filter_eq, fun r oid format target => rfl,
    builtin_unambiguous, fun r => builtin_unambiguous.answer_eq, ?_, ?_⟩
  · intro column oid format fault h
    exact Fault.exists_of_isDecode (builtin_coherent.decodeAs_fails takesKind_string fault h)
  · intro column oid format fault h
    exact Fault.exists_of_isDecode (builtin_coherent.decodeAs_fails takesKind_blob fault h)

/-- A codec for numbers of one type, which the other codec for texts does not decode, may stand
before the others or behind them.  Octets that are no text can not be decoded to one. -/
theorem order_matters_among_accepting_numbers :
    let numbers : Codec := .fixed
      { kind := .text, target := some .text, oid := some .int4, answer := .ok (.text "7") }
    let r : Registry := builtin.prepend numbers
    let s : Registry := ⟨[.text, .blob, numbers]⟩
    let request : Request := .decode (some [0x37]) .int4 .text .text
    let turned : Registry := ⟨[.text, .blob]⟩
    r.codecs.Perm s.codecs ∧
      r.codecs.filter request.acceptedBy = s.codecs.filter request.acceptedBy ∧
      r.answer request = s.answer request ∧ s.answer request = .decoded (.ok (some (.text "7"))) ∧
      turned.codecs.Perm builtin.codecs ∧
      turned.answer (.encode (.text "7")) = builtin.answer (.encode (.text "7")) ∧
      ∃ fault, builtin.decodeAs String (some [0xff]) .text .text = .error fault ∧
        ∃ type cause, fault = .decode type cause := by
  intro numbers r s request turned
  obtain ⟨halike, -, -, hturned, htext, -⟩ := order_matters_among_accepting
  have hperm : r.codecs.Perm s.codecs := List.reverse_perm s.codecs
  have hfilter : r.codecs.filter request.acceptedBy = s.codecs.filter request.acceptedBy := rfl
  have hswap : turned.codecs.Perm builtin.codecs := .swap _ _ _
  have hfails : builtin.decodeAs String (some [0xff]) .text .text =
      .error (.decode .text (.notText (.invalid 1 0))) := rfl
  exact ⟨hperm, hfilter, halike request r s hperm hfilter, rfl, hswap, hturned turned hswap _, _,
    hfails, htext _ _ _ _ hfails⟩

end Registry

end PgFrontend
