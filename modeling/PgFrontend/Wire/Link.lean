import PgFrontend.Wire.ClientMessage
import PgFrontend.Wire.Frame
/-!
# Links

A link to a server, as one attempt to open a session finds it: what the server has sent, in the
pieces in which reads return it, how far writes get, and a log of everything that was done over the
link.

A transfer ends in one of three ways. It succeeds, it fails with a fault, or it is still waiting
when the caller's stop signal comes; a caller without such a signal would wait for ever.
-/

namespace PgFrontend

open Octets

inductive Ending
  | closed
  | broken (text : String)
  /-- Nothing more comes, and the caller is told to stop. -/
  | silent
  deriving Repr, DecidableEq

inductive LinkEvent
  | dialled (host : String) (port : UInt16)
  | received (octets : Octets)
  | sent (octets : Octets)
  | closing
  | shutdown
  deriving Repr, DecidableEq

def LinkEvent.sentOctets : LinkEvent → Octets
  | sent octets => octets
  | _ => []

def LinkEvent.receivedOctets : LinkEvent → Octets
  | received octets => octets
  | _ => []

inductive Halt
  | fault (fault : Fault)
  | waiting
  deriving Repr, DecidableEq

def Ending.halt : Ending → Halt
  | .closed => .fault (.io .earlyEnd)
  | .broken text => .fault (.io (.other text))
  | .silent => .waiting

structure Interruption where
  /-- How many more transfers end before the stop signal comes. -/
  transfers : Nat
  /-- How many octets have gone out by then if the transfer is a write. -/
  written : Nat := 0
  deriving Repr, DecidableEq

structure Link where
  arrived : List Octets := []
  ending : Ending := .closed
  /-- How many more octets can be written, if there is a limit. -/
  room : Option Nat := none
  /-- Why a write fails that there is not enough room for. -/
  writeCause : TransferCause := .noRoom
  flushFault : Option Fault := none
  /-- How many more times written octets are pushed out before that fails. -/
  flushes : Nat := 0
  closeFault : Option Fault := none
  interruption : Option Interruption := none
  log : List LinkEvent := []
  deriving Repr

abbrev Wire := EStateM Halt Link

namespace Link

def unread (l : Link) : Octets :=
  l.arrived.flatten

def sent (l : Link) : Octets :=
  l.log.flatMap LinkEvent.sentOctets

def consumed (l : Link) : Octets :=
  l.log.flatMap LinkEvent.receivedOctets

def feed (l : Link) (octets : Octets) : Link :=
  { l with arrived := l.arrived ++ [octets] }

def record (event : LinkEvent) : Wire Unit :=
  modify fun l => { l with log := l.log ++ [event] }

/-- A result that no transfer is needed for. -/
def check {α : Type} : Except Fault α → Wire α
  | .ok a => pure a
  | .error fault => throw (.fault fault)

def refuse : Option Fault → Wire Unit
  | none => pure ()
  | some fault => throw (.fault fault)

/-- The wait of one transfer, which the stop signal may cut short; `before` says what has happened
then. -/
def wait (before : Nat → Wire Unit) : Wire Unit := fun l =>
  match l.interruption with
  | none => .ok () l
  | some ⟨0, written⟩ => (before written *> throw .waiting) l
  | some ⟨n + 1, written⟩ => .ok () { l with interruption := some ⟨n, written⟩ }

def pause : Wire Unit :=
  wait fun _ => pure ()

/-- Takes octets off the first piece that has arrived; `rest` is what remains of it, and `pieces`
are those after it. -/
def takeIn (octets rest : Octets) (pieces : List Octets) : Wire Unit := do
  modify fun l => { l with arrived := if rest.isEmpty then pieces else rest :: pieces }
  record (.received octets)

/-- Reads exactly `size` octets from the pieces that have arrived, one read for each piece. -/
def readPieces (size : Nat) : List Octets → Wire Octets
  | [] =>
      if size = 0 then pure []
      else do
        pause
        throw (Ending.halt (← get).ending)
  | piece :: pieces =>
      if size = 0 then pure []
      else if piece.isEmpty then do
        modify fun l => { l with arrived := pieces }
        readPieces size pieces
      else do
        pause
        takeIn (piece.take size) (piece.drop size) pieces
        let more ← readPieces (size - piece.length) pieces
        return piece.take size ++ more

def readExactly (size : Nat) : Wire Octets := do
  readPieces size (← get).arrived

/-- Reads a frame. The whole header is read before its length is looked at. -/
def readFrame : Wire Frame := do
  let header ← readExactly Frame.headerSize
  let size ← check (Frame.payloadSize header)
  let payload ← readExactly size
  return { tag := header.headD 0, payload }

/-- Notes that octets went out, as many of them as there is room for. -/
def put (octets : Octets) : Wire Unit := fun l =>
  match l.room with
  | none => record (.sent octets) l
  | some room => record (.sent (octets.take room)) { l with room := some (room - octets.length) }

/-- Writes octets. A write for which there is not enough room fails after what fits. -/
def write (octets : Octets) : Wire Unit := do
  wait fun written => put (octets.take written)
  let l ← get
  put octets
  refuse (if l.room.any (· < octets.length) then some (.io l.writeCause) else none)

def pushOut : Wire Unit := fun l =>
  match l.flushFault, l.flushes with
  | none, _ => .ok () l
  | some fault, 0 => .error (.fault fault) l
  | some _, n + 1 => .ok () { l with flushes := n }

def flush : Wire Unit := do
  pause
  pushOut

def transmit (octets : Octets) : Wire Unit := do
  write octets
  flush

def close : Wire Unit := do
  record .closing
  refuse (← get).closeFault
  transmit ClientMessage.terminate.encode
  record .shutdown

end Link

end PgFrontend
