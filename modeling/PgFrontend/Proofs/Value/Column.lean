import PgFrontend.Proofs.Value.Literal
import PgFrontend.Proofs.Value.Production
import PgFrontend.Value.Registry
/-!
# Blobs of columns

A blob that is decoded from a column keeps the column's octets and parses them whenever it is read, so
each reading finds all of the value, or the same fault and none of it.  `decodeAs_reads_literal` says
which columns have a value, and what the blob is encoded as again.
-/

namespace PgFrontend

namespace Blob

/-- What so many readings of a blob yield one after another, and the blob after them. -/
def readTimes : Nat → Blob → List (List Octets × Option Fault) × Blob
  | 0, b => ([], b)
  | n + 1, b => (b.read.1 :: (readTimes n b.read.2).1, (readTimes n b.read.2).2)

/-- A reading that yields a whole value at once, or fails before it yields anything. -/
def whole : Except Fault Octets → List Octets × Option Fault
  | .ok value => ([value], none)
  | .error fault => ([], some fault)

theorem read_column (octets : Octets) :
    (column (some octets)).read = (whole (Bytea.parse octets), column (some octets)) := by
  simp only [read, stream, columnBeat]
  cases Bytea.parse octets <;> rfl

theorem readTimes_column (n : Nat) (octets : Octets) :
    (column (some octets)).readTimes n =
      (List.replicate n (whole (Bytea.parse octets)), column (some octets)) := by
  induction n with
  | zero => rfl
  | succ n ih => simp only [readTimes, read_column, ih, List.replicate_succ]

theorem total_column (octets : Octets) :
    (column (some octets)).stream.1.total = some (Bytea.parse octets) := by
  simp only [stream, columnBeat]
  cases Bytea.parse octets with
  | ok value => simp [Except.map]
  | error fault => rfl

end Blob

theorem Blob.produce_column (octets : Octets) :
    Parameter.produce ⟨.text, .bytea, some (.deferred { guard := some (column (some octets)) })⟩ =
      some ((Bytea.parse octets).map fun _ => some (octets.map Hex.lower)) := by
  obtain ⟨last, hconcluded⟩ := Production.concluded_of_total (total_column octets)
  show ((Production.run true { guard := some (column (some octets)) }).result?.map fun r => r.map some) = _
  rw [Production.result?_run hconcluded rfl]
  cases hparse : Bytea.parse octets with
  | ok value =>
      have hwritten := (Bytea.parse_eq_ok_iff.mp hparse).written_eq
      simp [Except.map, hwritten]
  | error fault => rfl

/-- An octet that is no upper-case digit stays as it is. -/
theorem Hex.map_lower {s : Octets} (h : ∀ d ∈ s, ¬(0x41 ≤ d ∧ d ≤ 0x46)) : s.map lower = s :=
  calc
    s.map lower = s.map id := List.map_congr_left fun d hd => if_neg (h d hd)
    _ = s := List.map_id s

namespace Registry

/-- **A column of type `bytea` has a value just if it is a literal**, and then reading its blob yields
the whole value, however often; otherwise every reading fails with a decoding fault of that type, and
yields nothing.  The blob can be encoded again after any number of readings: what is produced is the
literal in lower case, and so the literal itself if it has no upper-case digits, or the same fault. -/
theorem decodeAs_reads_literal (octets : Octets) :
    ∃ blob, builtin.decodeAs Blob (some octets) .bytea .text = .ok (some blob) ∧
      ∃ outcome : Except Fault Octets,
        (∀ value, outcome = .ok value ↔ Bytea.Denotes octets value) ∧
        (∀ fault, outcome = .error fault → ∃ cause, fault = .decode .bytea cause) ∧
        (∀ n, blob.readTimes n = (List.replicate n (Blob.whole outcome), blob)) ∧
        (∃ parameter, builtin.encode (.blob blob) = .ok parameter ∧
          parameter.produce = some (outcome.map fun _ => some (octets.map Hex.lower))) ∧
        ((∀ d ∈ octets, ¬(0x41 ≤ d ∧ d ≤ 0x46)) → octets.map Hex.lower = octets) := by
  refine ⟨.column (some octets), rfl, Bytea.parse octets, fun value => Bytea.parse_eq_ok_iff,
    fun fault => Bytea.parse_eq_error, fun n => Blob.readTimes_column n octets, ?_,
    Hex.map_lower⟩
  exact ⟨_, rfl, Blob.produce_column octets⟩

end Registry

end PgFrontend
