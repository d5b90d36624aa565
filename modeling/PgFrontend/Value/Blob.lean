import PgFrontend.Value.Bytea
/-!
# Blobs

A blob is a binary value that is read as a stream of chunks and discarded when it is no longer
needed. A blob that was decoded from a column keeps the column's octets until then and parses them
at each reading; one that the application supplies yields its chunks once.
-/

namespace PgFrontend

inductive Beat
  | pause
  | chunk (octets : Octets)
  | failure (fault : Fault)
  deriving Repr, DecidableEq

/-- The reading of a blob: its beats one after another, and then the end or a wait for ever. -/
structure Stream where
  beats : List Beat := []
  stalls : Bool := false
  deriving Repr, DecidableEq

/-- The chunks of a stream up to its end or its first failure, and the failure. -/
def Stream.collect : List Beat → List Octets × Option Fault
  | [] => ([], none)
  | .pause :: beats => collect beats
  | .chunk octets :: beats =>
      let (chunks, failure) := collect beats
      (octets :: chunks, failure)
  | .failure fault :: _ => ([], some fault)

structure Source where
  stream : Stream := {}
  /-- How often a discard has to be waited for, unless it never ends. -/
  discardPauses : Option Nat := some 0
  deriving Repr, DecidableEq

inductive Blob
  /-- The octets of a column, until they are discarded. -/
  | column (held : Option Octets)
  | source (source : Source)
  deriving Repr, DecidableEq

namespace Blob

def columnBeat : Option Octets → Beat
  | none => .failure (.internal .readAfterDiscard)
  | some octets =>
      match Bytea.parse octets with
      | .ok value => .chunk value
      | .error fault => .failure fault

def stream : Blob → Stream × Blob
  | column held => ({ beats := [columnBeat held] }, column held)
  | source s => (s.stream, source { s with stream := {} })

def discard : Blob → Blob
  | column _ => column none
  | source s => source s

def discardPauses : Blob → Option Nat
  | column _ => some 0
  | source s => s.discardPauses

def read (b : Blob) : (List Octets × Option Fault) × Blob :=
  let (reading, next) := b.stream
  (Stream.collect reading.beats, next)

end Blob

end PgFrontend
