import PgFrontend.Octets
/-!
# Hexadecimal digits

Octets written as two hexadecimal digits each, the high half first. Writing uses lower-case
letters, reading takes either case, so `decode (encode s) = s` while several texts may denote the
same octets.
-/

namespace PgFrontend.Hex

open Octets

/-- The lower-case digit of a number below 16, as an ASCII octet. -/
def digit (n : UInt8) : UInt8 :=
  if n < 10 then n + 48 else n + 87

def value? (d : UInt8) : Option UInt8 :=
  if 48 ≤ d ∧ d ≤ 57 then some (d - 48)
  else if 97 ≤ d ∧ d ≤ 102 then some (d - 87)
  else if 65 ≤ d ∧ d ≤ 70 then some (d - 55)
  else none

def encode (s : Octets) : Octets :=
  s.flatMap fun b => [digit (b / 16), digit (b % 16)]

inductive Flaw
  | oddLength
  | notDigit (octet : UInt8) (position : Nat)
  deriving Repr, DecidableEq

/-- The octets that pairs of digits denote. The first octet that is no digit is reported with its
position, which is `start` for the first one. -/
def decodePairs (start : Nat) : Octets → Except Flaw Octets
  | [] => .ok []
  | [_] => .error .oddLength
  | high :: low :: rest =>
      match value? high, value? low with
      | none, _ => .error (.notDigit high start)
      | _, none => .error (.notDigit low (start + 1))
      | some h, some l => (decodePairs (start + 2) rest).map ((h * 16 + l) :: ·)

/-- The octets that a run of digits denotes. An odd number of digits is reported before anything
else. -/
def decode (s : Octets) : Except Flaw Octets :=
  if s.length % 2 = 1 then .error .oddLength else decodePairs 0 s

def text (s : Octets) : String :=
  String.ofList ((encode s).map fun d => Char.ofNat d.toNat)

@[simp] theorem encode_nil : encode [] = [] := rfl

theorem encode_append (s t : Octets) : encode (s ++ t) = encode s ++ encode t := by
  simp [encode]

@[simp] theorem length_encode (s : Octets) : (encode s).length = 2 * s.length := by
  induction s with
  | nil => rfl
  | cons b s ih => simp_all [encode]; omega

end PgFrontend.Hex
