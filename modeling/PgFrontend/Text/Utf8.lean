import PgFrontend.Octets
/-!
# Reading UTF-8

A run of octets is cut into pieces: characters, runs of octets that begin no character, and, at the
very end, a character that is not complete. The octets are read one at a time, so a faulty run is
the longest that could still have become a character, and an octet that breaks one off is looked at
again as the first of the next piece.

`decode` accepts the runs whose pieces are all characters and otherwise tells where the first other
piece stands; `lossy` puts one replacement character in the place of each of those.
-/

namespace PgFrontend.Utf8

open Octets

inductive Piece
  | char (c : Char)
  /-- This many octets begin no character. -/
  | invalid (size : Nat)
  /-- The input ends after this many octets of a character. -/
  | incomplete (size : Nat)
  deriving Repr, DecidableEq

def Piece.size : Piece → Nat
  | char c => c.utf8Size
  | invalid n => n
  | incomplete n => n

structure Begun where
  seen : Nat
  owed : Nat
  low : UInt8
  high : UInt8
  value : Nat
  deriving Repr, DecidableEq

/-- The pieces that an octet completes when no character is begun, and the character it begins. The
bounds on the second octet keep out the overlong forms, the surrogates and what lies beyond the last
code point. -/
def first (b : UInt8) : List Piece × Option Begun :=
  if b < 0x80 then ([.char (Char.ofNat b.toNat)], none)
  else if b < 0xC2 then ([.invalid 1], none)
  else if b < 0xE0 then ([], some ⟨1, 1, 0x80, 0xBF, b.toNat - 0xC0⟩)
  else if b < 0xF0 then
    ([], some ⟨1, 2, if b = 0xE0 then 0xA0 else 0x80, if b = 0xED then 0x9F else 0xBF,
      b.toNat - 0xE0⟩)
  else if b < 0xF5 then
    ([], some ⟨1, 3, if b = 0xF0 then 0x90 else 0x80, if b = 0xF4 then 0x8F else 0xBF,
      b.toNat - 0xF0⟩)
  else ([.invalid 1], none)

/-- The pieces that an octet completes, and the character that is begun after it. -/
def step : Option Begun → UInt8 → List Piece × Option Begun
  | none, b => first b
  | some p, b =>
      if p.low ≤ b ∧ b ≤ p.high then
        let value := p.value * 64 + (b.toNat - 0x80)
        if p.owed = 1 then ([.char (Char.ofNat value)], none)
        else ([], some ⟨p.seen + 1, p.owed - 1, 0x80, 0xBF, value⟩)
      else
        let (after, begun) := first b
        (.invalid p.seen :: after, begun)

def piecesAfter : Option Begun → Octets → List Piece
  | none, [] => []
  | some p, [] => [.incomplete p.seen]
  | begun, b :: s =>
      let (out, next) := step begun b
      out ++ piecesAfter next s

def pieces (s : Octets) : List Piece :=
  piecesAfter none s

inductive Flaw
  /-- The `size` octets from `index` on begin no character. -/
  | invalid (size index : Nat)
  /-- The input ends within the character that begins at `index`. -/
  | incomplete (index : Nat)
  deriving Repr, DecidableEq

def Flaw.message : Flaw → String
  | invalid size index => s!"invalid utf-8 sequence of {size} bytes from index {index}"
  | incomplete index => s!"incomplete utf-8 byte sequence from index {index}"

/-- The characters of pieces that begin at an index, up to the first flaw. -/
def characters (index : Nat) : List Piece → Except Flaw (List Char)
  | [] => .ok []
  | .char c :: rest => (characters (index + c.utf8Size) rest).map (c :: ·)
  | .invalid size :: _ => .error (.invalid size index)
  | .incomplete _ :: _ => .error (.incomplete index)

def decode (s : Octets) : Except Flaw String :=
  (characters 0 (pieces s)).map String.ofList

def replacement : Char := Char.ofNat 0xFFFD

/-- The text of a run of octets, with a replacement character for each piece that is no character.
-/
def lossy (s : Octets) : String :=
  String.ofList <| (pieces s).map fun
    | .char c => c
    | .invalid _ => replacement
    | .incomplete _ => replacement

end PgFrontend.Utf8
