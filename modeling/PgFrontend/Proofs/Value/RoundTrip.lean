import PgFrontend.Proofs.Text.Utf8
import PgFrontend.Proofs.Value.Literal
import PgFrontend.Proofs.Value.Production
import PgFrontend.Value.Registry
/-!
# Values that come back

What the built-in registry writes as a parameter it reads as a column: the codec that answers for a
value also accepts the format and type that it writes, and its reading undoes its writing.
-/

namespace PgFrontend

/-- A blob whose stream ends after these chunks without a failure, and whose discard ends. -/
structure Blob.Yields (b : Blob) (chunks : List Octets) : Prop where
  read_eq : b.read.1 = (chunks, none)
  ends : b.stream.1.stalls = false
  discards : b.discardPauses.isSome = true

/-- The beats of a stream that yields chunks and is waited for before each of them. -/
def Stream.beatsOf : List (Nat × Octets) → List Beat
  | [] => []
  | (pauses, chunk) :: rest => List.replicate pauses .pause ++ .chunk chunk :: beatsOf rest

theorem Stream.collect_replicate_pause (pauses : Nat) (beats : List Beat) :
    collect (List.replicate pauses .pause ++ beats) = collect beats := by
  induction pauses with
  | zero => rfl
  | succ pauses ih => rw [List.replicate_succ, List.cons_append, collect, ih]

theorem Stream.collect_beatsOf (pieces : List (Nat × Octets)) :
    collect (beatsOf pieces) = (pieces.map (·.2), none) := by
  induction pieces with
  | nil => rfl
  | cons piece pieces ih =>
      obtain ⟨pauses, chunk⟩ := piece
      rw [beatsOf, collect_replicate_pause, collect, ih, List.map_cons]

/-- Any list of chunks is what some blob yields, with any waits before the chunks and at the
discard. -/
theorem Blob.yields_source (pieces : List (Nat × Octets)) (pauses : Nat) :
    (Blob.source ⟨⟨Stream.beatsOf pieces, false⟩, some pauses⟩).Yields (pieces.map (·.2)) :=
  ⟨Stream.collect_beatsOf pieces, rfl, rfl⟩

theorem Blob.Yields.concluded {b : Blob} {chunks : List Octets} (h : b.Yields chunks) :
    Production.Concluded b .ended (.ok (Bytea.marker ++ Hex.encode chunks.flatten)) := by
  have hcollect : Stream.collect b.stream.1.beats = (chunks, none) := h.read_eq
  apply Production.Concluded.ended
  rw [Stream.total, hcollect]
  simp [h.ends]

theorem Blob.Yields.produce_eq {b : Blob} {chunks : List Octets} (h : b.Yields chunks) :
    Parameter.produce ⟨.text, .bytea, some (.deferred { guard := some b })⟩ =
      some (.ok (some (Bytea.marker ++ Hex.encode chunks.flatten))) := by
  show ((Production.run true { guard := some b }).result?.map fun r => r.map some) = _
  rw [Production.result?_run h.concluded h.discards]
  rfl

theorem Blob.stream_column {literal octets : Octets} (h : Bytea.parse literal = .ok octets) :
    (Blob.column (some literal)).stream.1 = { beats := [.chunk octets] } := by
  simp only [Blob.stream, Blob.columnBeat, h]

namespace Registry

theorem encode_blob (b : Blob) :
    builtin.encode (.blob b) = .ok ⟨.text, .bytea, some (.deferred { guard := some b })⟩ := rfl

theorem encode_text (s : String) :
    builtin.encode (.text s) = .ok (.ready .text .varchar (Octets.ofString s)) := rfl

theorem decodeAs_blob (octets : Octets) :
    builtin.decodeAs Blob (some octets) .bytea .text = .ok (some (.column (some octets))) := rfl

theorem decodeAs_text (s : String) :
    builtin.decodeAs String (some (Octets.ofString s)) .varchar .text = .ok (some s) := by
  have htext : Codec.decodeText (Octets.ofString s) = .ok (.text s) := by
    rw [Codec.decodeText, Utf8.decode_ofString]
  have hdecode : builtin.decode (some (Octets.ofString s)) .varchar .text (FromValue.kind String) =
      .ok (some (.text s)) := by
    show (Codec.decodeText (Octets.ofString s)).map some = _
    rw [htext]
    rfl
  rw [decodeAs, hdecode]
  rfl

/-- **What the built-in registry encodes it decodes back**, under the format and the type of the
parameter that it made.  A blob comes back as one whose stream is a single chunk, all chunks of the
encoded one put together; a text comes back as it was.  The parameters are not null, and their
octets can be produced. -/
theorem decodeAs_encode :
    (∀ b chunks, Blob.Yields b chunks →
      ∃ parameter octets decoded, builtin.encode (.blob b) = .ok parameter ∧
        parameter.isNull = false ∧ parameter.produce = some (.ok (some octets)) ∧
        builtin.decodeAs Blob (some octets) parameter.oid parameter.format = .ok (some decoded) ∧
        decoded.stream.1 = { beats := [.chunk chunks.flatten] }) ∧
      ∀ s : String, ∃ parameter octets, builtin.encode (.text s) = .ok parameter ∧
        parameter.isNull = false ∧ parameter.produce = some (.ok (some octets)) ∧
        builtin.decodeAs String (some octets) parameter.oid parameter.format = .ok (some s) := by
  constructor
  · intro b chunks h
    refine ⟨_, Bytea.marker ++ Hex.encode chunks.flatten, _, encode_blob b, rfl, h.produce_eq,
      decodeAs_blob _, ?_⟩
    apply Blob.stream_column
    exact Bytea.parse_marker_append chunks.flatten
  · intro s
    exact ⟨_, Octets.ofString s, encode_text s, rfl, rfl, decodeAs_text s⟩

/-- Two chunks with an empty one between them, and waits before each of them and at the discard. -/
theorem decodeAs_encode_waiting :
    let beats := Stream.beatsOf [(1, [0x48, 0x65]), (2, []), (0, [0xff])]
    let b : Blob := .source ⟨⟨beats, false⟩, some 3⟩
    ∃ parameter octets decoded, builtin.encode (.blob b) = .ok parameter ∧
      parameter.isNull = false ∧ parameter.produce = some (.ok (some octets)) ∧
      builtin.decodeAs Blob (some octets) parameter.oid parameter.format = .ok (some decoded) ∧
      decoded.stream.1 = { beats := [.chunk [0x48, 0x65, 0xff]] } :=
  decodeAs_encode.1 _ _ (Blob.yields_source [(1, [0x48, 0x65]), (2, []), (0, [0xff])] 3)

end Registry

end PgFrontend
