import PgFrontend.Octets
/-!
# Base64

The standard alphabet with canonical padding. Writing turns each three octets into four symbols and
pads the last group with `=`; reading accepts exactly what writing produces and otherwise tells the
first thing that is wrong.

The input of a reader is cut into a body of whole groups, where no padding may stand, and a tail of
at most four octets, where it may.
-/

namespace PgFrontend.Base64

open Octets

def pad : UInt8 := 61

def symbol (n : Nat) : UInt8 :=
  if n < 26 then UInt8.ofNat (n + 65)
  else if n < 52 then UInt8.ofNat (n + 71)
  else if n < 62 then UInt8.ofNat (n - 4)
  else if n = 62 then 43
  else 47

def value? (b : UInt8) : Option Nat :=
  if 65 ≤ b ∧ b ≤ 90 then some (b.toNat - 65)
  else if 97 ≤ b ∧ b ≤ 122 then some (b.toNat - 71)
  else if 48 ≤ b ∧ b ≤ 57 then some (b.toNat + 4)
  else if b = 43 then some 62
  else if b = 47 then some 63
  else none

/-- Three octets to four symbols, with padding where octets are missing. -/
def encode : Octets → Octets
  | [] => []
  | [a] => [symbol (a.toNat / 4), symbol (a.toNat % 4 * 16), pad, pad]
  | [a, b] =>
      [symbol (a.toNat / 4), symbol (a.toNat % 4 * 16 + b.toNat / 16),
        symbol (b.toNat % 16 * 4), pad]
  | a :: b :: c :: rest =>
      symbol (a.toNat / 4) :: symbol (a.toNat % 4 * 16 + b.toNat / 16) ::
        symbol (b.toNat % 16 * 4 + c.toNat / 64) :: symbol (c.toNat % 64) :: encode rest

def text (s : Octets) : String :=
  String.ofList ((encode s).map fun b => Char.ofNat b.toNat)

inductive Flaw
  | symbol (octet : UInt8) (offset : Nat)
  /-- The input ends where the last group has fewer than two symbols. -/
  | length (size : Nat)
  | padding
  /-- The last symbol has bits that belong to no octet. -/
  | lastSymbol (octet : UInt8) (offset : Nat)
  deriving Repr, DecidableEq

def Flaw.message : Flaw → String
  | symbol octet offset => s!"Invalid symbol {octet.toNat}, offset {offset}."
  | length size => s!"Invalid input length: {size}"
  | padding => "Invalid padding"
  | lastSymbol octet offset => s!"Invalid last symbol {octet.toNat}, offset {offset}."

/-- The numbers of a body, whose first symbol stands at an offset. -/
def body (offset : Nat) : Octets → Except Flaw (List Nat)
  | [] => .ok []
  | b :: s =>
      match value? b with
      | none => .error (.symbol b offset)
      | some v => (body (offset + 1) s).map (v :: ·)

/-- The symbols of a tail and the number of its padding octets. The tail begins at `offset`, `index`
octets of it have been read, and `padded` is the index of the first padding octet among them. -/
def tail (offset index : Nat) (padded : Option Nat) : Octets → Except Flaw (Octets × Nat)
  | [] => .ok ([], 0)
  | b :: s =>
      if b = pad then
        if index < 2 then .error (.symbol pad (offset + index))
        else (tail offset (index + 1) (some (padded.getD index)) s).map fun (t, n) => (t, n + 1)
      else match padded with
        | some first => .error (.symbol pad (offset + first))
        | none =>
            if (value? b).isNone then .error (.symbol b (offset + index))
            else (tail offset (index + 1) none s).map fun (t, n) => (b :: t, n)

/-- Four numbers to three octets; two and three numbers at the end to one octet and two. -/
def group : List Nat → Octets
  | a :: b :: c :: d :: rest =>
      UInt8.ofNat (a * 4 + b / 16) :: UInt8.ofNat (b % 16 * 16 + c / 4) ::
        UInt8.ofNat (c % 4 * 64 + d) :: group rest
  | [a, b, c] => [UInt8.ofNat (a * 4 + b / 16), UInt8.ofNat (b % 16 * 16 + c / 4)]
  | [a, b] => [UInt8.ofNat (a * 4 + b / 16)]
  | _ => []

/-- Whether the last of some symbols holds bits that belong to no octet. -/
def hasSpareBits (numbers : List Nat) : Bool :=
  match numbers with
  | [_, b] => b % 16 != 0
  | [_, _, c] => c % 4 != 0
  | _ => false

def tailSize (size : Nat) : Nat :=
  if size % 4 = 0 then 4 else size % 4

def decode (s : Octets) : Except Flaw Octets := do
  if s.isEmpty then
    return []
  let last := s.getLastD pad
  if s.length % 4 = 1 ∧ last ≠ pad ∧ (value? last).isNone then
    throw (.symbol last (s.length - 1))
  let offset := s.length - tailSize s.length
  let numbers ← body 0 (s.take offset)
  let (symbols, padding) ← tail offset 0 none (s.drop offset)
  if symbols.length < 2 then
    throw (.length (offset + symbols.length))
  if (symbols.length + padding) % 4 ≠ 0 then
    throw .padding
  let final := symbols.filterMap value?
  if hasSpareBits final then
    throw (.lastSymbol (symbols.getLastD pad) (offset + symbols.length - 1))
  return group (numbers ++ final)

end PgFrontend.Base64
