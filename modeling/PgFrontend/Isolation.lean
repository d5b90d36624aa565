import PgFrontend.Fault
import PgFrontend.Text.Blank
/-!
# Isolation levels

The four levels at which a transaction can be isolated from others. A level is read from its name in
SQL in either case, with white space around it.
-/

namespace PgFrontend

inductive IsolationLevel
  | readUncommitted
  | readCommitted
  | repeatableRead
  | serializable
  deriving Repr, DecidableEq

namespace IsolationLevel

def standard : IsolationLevel := readCommitted

def sql : IsolationLevel → String
  | readUncommitted => "READ UNCOMMITTED"
  | readCommitted => "READ COMMITTED"
  | repeatableRead => "REPEATABLE READ"
  | serializable => "SERIALIZABLE"

def label : IsolationLevel → String
  | readUncommitted => "ReadUncommitted"
  | readCommitted => "ReadCommitted"
  | repeatableRead => "RepeatableRead"
  | serializable => "Serializable"

def normal (s : String) : List Char :=
  (trimBlanks s.toList).map Char.toLower

def parse (s : String) : Except Fault IsolationLevel :=
  let levels := [readUncommitted, readCommitted, repeatableRead, serializable]
  match levels.find? fun level => normal level.sql == normal s with
  | some level => .ok level
  | none => .error (.protocol (.unknownIsolation s))

end IsolationLevel

end PgFrontend
