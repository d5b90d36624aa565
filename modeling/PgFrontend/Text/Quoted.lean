import PgFrontend.Octets
import PgFrontend.Text.Printable
/-!
# Quoted text

How texts, characters and octets are shown inside messages: between quotes, with a backslash before
the quote and the backslash itself, short escapes for the usual control characters, and a
hexadecimal escape for everything that is not printable.
-/

namespace PgFrontend.Quoted

/-- The lower-case hexadecimal digits of a number, as few as possible. -/
def hexadecimal (n : Nat) : String :=
  String.ofList (Nat.toDigits 16 n)

def shortEscape? (n : Nat) : Option String :=
  match n with
  | 0 => some "\\0"
  | 9 => some "\\t"
  | 10 => some "\\n"
  | 13 => some "\\r"
  | 92 => some "\\\\"
  | _ => none

def escape (quote : Char) (c : Char) : String :=
  if c = quote then "\\" ++ String.singleton c
  else match shortEscape? c.toNat with
    | some short => short
    | none =>
        if Printable.isPrintable c then String.singleton c
        else "\\u\x7b" ++ hexadecimal c.toNat ++ "\x7d"

def text (s : String) : String :=
  "\"" ++ String.join (s.toList.map (escape '"')) ++ "\""

def char (c : Char) : String :=
  "'" ++ escape '\'' c ++ "'"

/-- One octet between double quotes: ASCII as itself, anything else by its two digits. -/
def escapeOctet (b : UInt8) : String :=
  if b = 34 then "\\\""
  else match shortEscape? b.toNat with
    | some short => short
    | none =>
        if 32 ≤ b ∧ b < 127 then String.singleton (Char.ofNat b.toNat)
        else "\\x" ++ (if b < 16 then "0" else "") ++ hexadecimal b.toNat

def octets (s : Octets) : String :=
  "b\"" ++ String.join (s.map escapeOctet) ++ "\""

def list (items : List String) : String :=
  "[" ++ String.intercalate ", " items ++ "]"

def optional (value : Option String) : String :=
  match value with
  | none => "None"
  | some v => "Some(" ++ v ++ ")"

def fields (name : String) (items : List (String × String)) : String :=
  name ++ " \x7b " ++ String.intercalate ", " (items.map fun (k, v) => k ++ ": " ++ v) ++ " \x7d"

def someFields (name : String) (items : List (String × String)) : String :=
  name ++ " \x7b " ++ String.join (items.map fun (k, v) => k ++ ": " ++ v ++ ", ") ++ ".. \x7d"

end PgFrontend.Quoted
