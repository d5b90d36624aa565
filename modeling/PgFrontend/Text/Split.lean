/-!
# Pieces and numbers of a text

A text cut at each place where a separator stands, and decimal numbers that fit 32 bits.
-/

namespace PgFrontend

/-- The pieces between separators. There is always one more piece than there are separators. -/
def cutAt (separator : Char) : List Char → List (List Char)
  | [] => [[]]
  | c :: cs =>
      if c = separator then [] :: cutAt separator cs
      else match cutAt separator cs with
        | [] => [[c]]
        | piece :: pieces => (c :: piece) :: pieces

def ofDigits (digits : List Char) : Nat :=
  digits.foldl (fun n d => n * 10 + (d.toNat - 48)) 0

/-- The 32-bit number that a text stands for: digits, with or without a plus before them. -/
def word32? (cs : List Char) : Option Nat :=
  let digits := match cs with
    | '+' :: rest => rest
    | _ => cs
  if !digits.isEmpty && digits.all Char.isDigit && ofDigits digits < UInt32.size then
    some (ofDigits digits)
  else none

end PgFrontend
