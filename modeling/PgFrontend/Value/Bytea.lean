import PgFrontend.Fault
import PgFrontend.Octets.Chunked
/-!
# Binary literals

The text form of a `bytea` value: a marker, and two hexadecimal digits for each octet. A literal is
written step by step from a chunked buffer; each step takes a bounded number of octets of one chunk.
-/

namespace PgFrontend.Bytea

open Octets

def marker : Octets := [0x5c, 0x78]

def stepSize : Nat := 1024

def parse (literal : Octets) : Except Fault Octets :=
  match literal with
  | 0x5c :: 0x78 :: digits =>
      match Hex.decode digits with
      | .error flaw => .error (.decode .bytea (.digits flaw))
      | .ok octets => .ok octets
  | _ => .error (.decode .bytea .missingMarker)

/-- What a step of the writing can come to instead of the next one. -/
inductive Mishap
  | failed (fault : Fault)
  /-- A window was to be opened on more octets than there are. -/
  | outOfRange (wanted size : Nat)
  /-- More octets were to be skipped than the buffer holds. -/
  | overrun
  /-- Nothing was skipped, so that this step would be made for ever. -/
  | endless
  deriving Repr, DecidableEq

def window (size : Nat) (s : Octets) : Except Mishap Octets :=
  if size ≤ s.length then .ok (s.take size) else .error (.outOfRange size s.length)

/-- The digits of octets, which have to fill a window. -/
def fill (room octets : Octets) : Except Mishap Octets :=
  if room.length = 2 * octets.length then .ok (Hex.encode octets)
  else .error (.failed (.internal .windowMismatch))

/-- A literal that is being written: the octets that are left, the space in which the digits of a
step are put together, and what was written so far. -/
structure Writing where
  rest : ChunkedBuffer
  scratch : Octets := List.replicate (2 * stepSize) 0
  written : Octets := marker

def Writing.step (w : Writing) : Except Mishap Writing := do
  let size := min w.rest.first.length stepSize
  let room ← window (2 * size) w.scratch
  let octets ← window size w.rest.first
  let digits ← fill room octets
  match w.rest.advance? size with
  | none => throw .overrun
  | some rest =>
      return { rest, scratch := digits ++ w.scratch.drop (2 * size), written := w.written ++ digits }

def Writing.finish (w : Writing) : Except Mishap Octets :=
  if w.rest.remaining = 0 then .ok w.written
  else
    match w.step with
    | .error mishap => .error mishap
    | .ok next =>
        if next.rest.remaining < w.rest.remaining then next.finish else .error .endless
termination_by w.rest.remaining

def write (b : ChunkedBuffer) : Except Mishap Octets :=
  Writing.finish { rest := b }

end PgFrontend.Bytea
