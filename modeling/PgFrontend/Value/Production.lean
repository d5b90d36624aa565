import PgFrontend.Value.Blob
/-!
# Productions

The octets of a `bytea` parameter are produced from a blob when they are needed: the blob is read to
its end or its first failure, and then discarded. A production goes on when it is polled, until the
next wait, and it can be given up at any wait, or before it was ever polled.

The blob stands in a guard. Whoever discards it takes it out first: a production that is settled, and
otherwise the guard itself when the production is given up.

A production keeps the list of calls that its blob has received.
-/

namespace PgFrontend

inductive BlobCall
  | stream
  | ended
  | failed
  | discard
  | released
  deriving Repr, DecidableEq

inductive Production.Phase
  | idle
  | streaming (rest : Stream) (gathered : ChunkedBuffer)
  /-- The result is known and the discard has to be waited for. -/
  | discarding (pauses : Option Nat) (result : Except Fault Octets)
  | finished (result : Except Fault Octets)
  /-- The writing of the literal has stopped with neither a literal nor a fault. -/
  | broken (mishap : Bytea.Mishap)
  | abandoned

structure Production where
  guard : Option Blob
  phase : Production.Phase := .idle
  calls : List BlobCall := []

namespace Production

def note (p : Production) (call : BlobCall) : Production :=
  { p with calls := p.calls ++ [call] }

/-- A discard that has to be waited for so often. -/
def await (p : Production) (result : Except Fault Octets) : Option Nat → Production
  | some 0 => { p.note .released with phase := .finished result }
  | pauses => { p with phase := .discarding pauses result }

/-- Discards what the guard holds, and ends with a result. -/
def settle (p : Production) (result : Except Fault Octets) : Production :=
  match p.guard with
  | none => { p with phase := .finished result }
  | some blob => { p.note .discard with guard := none }.await result blob.discardPauses

def settleWriting (p : Production) : Except Bytea.Mishap Octets → Production
  | .ok literal => p.settle (.ok literal)
  | .error (.failed fault) => p.settle (.error fault)
  | .error mishap => { p with phase := .broken mishap }

/-- Takes the beats of a stream up to a wait. -/
def gather (p : Production) (stalls : Bool) : List Beat → ChunkedBuffer → Production
  | [], gathered =>
      if stalls then { p with phase := .streaming { stalls } gathered }
      else (p.note .ended).settleWriting (Bytea.write gathered)
  | .pause :: beats, gathered => { p with phase := .streaming { beats, stalls } gathered }
  | .chunk octets :: beats, gathered => gather p stalls beats (gathered.add octets)
  | .failure fault :: _, _ => (p.note .failed).settle (.error fault)

/-- Goes on to the next wait. -/
def poll (p : Production) : Production :=
  match p.phase with
  | .idle =>
      match p.guard with
      | none => p.settle (.error (.internal .sourceDiscarded))
      | some blob =>
          let (reading, next) := blob.stream
          { p.note .stream with guard := some next }.gather reading.stalls reading.beats {}
  | .streaming rest gathered => p.gather rest.stalls rest.beats gathered
  | .discarding (some (n + 1)) result => p.await result (some n)
  | _ => p

/-- Whether a discard ends that nobody waits for: a runtime sees it through, without one it is
polled only once. -/
def isSeenThrough (inRuntime : Bool) (pauses : Option Nat) : Bool :=
  if inRuntime then pauses.isSome else pauses == some 0

def Phase.givenUp : Phase → Phase
  | finished result => finished result
  | _ => abandoned

/-- Gives the production up, and what its guard still holds is discarded. -/
def abandon (inRuntime : Bool) (p : Production) : Production :=
  let left := { p with phase := p.phase.givenUp }
  match p.guard with
  | none => left
  | some blob =>
      let discarded := { left.note .discard with guard := none }
      if isSeenThrough inRuntime blob.discardPauses then discarded.note .released else discarded

def pollTimes : Nat → Production → Production
  | 0, p => p
  | n + 1, p => pollTimes n p.poll

/-- How many polls a production needs that can end at all. -/
def patience (p : Production) : Nat :=
  match p.guard with
  | none => 1
  | some blob =>
      let waits := (blob.stream.1.beats.filter (· == .pause)).length
      1 + waits + blob.discardPauses.getD 0

/-- Polls a production to its end, or gives it up if it has none. -/
def run (inRuntime : Bool) (p : Production) : Production :=
  (p.pollTimes p.patience).abandon inRuntime

def result? (p : Production) : Option (Except Fault Octets) :=
  match p.phase with
  | .finished result => some result
  | _ => none

end Production

end PgFrontend
