import PgFrontend.Column.Basic
import PgFrontend.Column.DataRow
import PgFrontend.Value.Registry
import PgFrontend.Wire.Conversation
import PgFrontend.Wire.Status
/-!
# Simple queries

A query is sent as text, and the server answers with frames up to the one that says it is ready
again: descriptions of columns, rows, tags of finished commands, and errors. An error does not end
the reading, so that the next query finds its own answer; the first of them is the query's result.
-/

namespace PgFrontend

/-- A row of a result, with the columns that were described last before it. -/
structure Row where
  columns : List Column
  values : List (Option Octets)
  deriving Repr, DecidableEq

namespace Row

def raw (r : Row) (index : Nat) : Option Octets :=
  (r.values[index]?).join

def get (α : Type) [FromValue α] (codecs : Registry) (r : Row) (index : Nat) :
    Except Fault (Option α) :=
  match r.columns[index]? with
  | none => .error (.protocol (.columnIndex index r.columns.length))
  | some column => codecs.decodeAs α (r.raw index) column.type column.format

end Row

structure QueryResult where
  rows : List Row := []
  tags : List String := []
  deriving Repr, DecidableEq

namespace Query

/-- What is known of an answer before it has ended. -/
structure Progress where
  columns : List Column := []
  result : QueryResult := {}
  error : Option Fault := none
  deriving Repr, DecidableEq

def Progress.addRow (p : Progress) (values : List (Option Octets)) : Except Fault Progress :=
  if values.length = p.columns.length then
    let row : Row := { columns := p.columns, values }
    .ok { p with result := { p.result with rows := p.result.rows ++ [row] } }
  else .error (.protocol (.columnCount values.length p.columns.length))

def Progress.take (p : Progress) (frame : Frame) : Except Fault Progress :=
  match Char.ofNat frame.tag.toNat with
  | 'T' => (Column.parseAll frame.payload).map fun columns => { p with columns }
  | 'D' => DataRow.parse frame.payload >>= p.addRow
  | 'C' =>
      (commandTag frame.payload).map fun tag =>
        { p with result := { p.result with tags := p.result.tags ++ [tag] } }
  | 'E' => .ok { p with error := p.error <|> some (.ofErrorReport frame.payload) }
  | _ => .ok p

def readyTag : UInt8 := 0x5a

def rule (p : Progress) (frame : Frame) : Turn Progress QueryResult :=
  if frame.tag = readyTag then
    match p.error with
    | some fault => .fail fault
    | none => .done p.result
  else match p.take frame with
    | .ok p => .wait p
    | .error fault => .fail fault

def run (sql : String) : Wire QueryResult := do
  Link.transmit (ClientMessage.query sql).encode
  converse rule {}

end Query

end PgFrontend
