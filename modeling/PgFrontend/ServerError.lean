import PgFrontend.Sqlstate
import PgFrontend.Text.Utf8
/-!
# Errors that the server reports

An error report is a run of pairs, each a code octet and a text that ends at a zero octet. The run
ends at a zero code octet, with the payload, or at a text without an end. Of several texts with one
code the last counts; the severity that does not depend on the server's language goes before the
other one.
-/

namespace PgFrontend

open Octets

structure ErrorFields where
  severity : Option String
  code : Option String
  message : Option String
  detail : Option String
  hint : Option String
  deriving Repr, DecidableEq

namespace ErrorFields

def empty : ErrorFields :=
  ⟨none, none, none, none, none⟩

def pairs : Octets → List (UInt8 × Octets)
  | [] => []
  | code :: s =>
      if code = 0 then []
      else match _found : cstring? s with
        | none => []
        | some (value, rest) => (code, value) :: pairs rest
termination_by s => s.length
decreasing_by
  have := cstring?_length_lt _found
  simp
  omega

def record (f : ErrorFields) (pair : UInt8 × Octets) : ErrorFields :=
  let value := some (Utf8.lossy pair.2)
  match Char.ofNat pair.1.toNat with
  | 'V' => { f with severity := value }
  | 'S' => { f with severity := f.severity <|> value }
  | 'C' => { f with code := value }
  | 'M' => { f with message := value }
  | 'D' => { f with detail := value }
  | 'H' => { f with hint := value }
  | _ => f

def parse (payload : Octets) : ErrorFields :=
  (pairs payload).foldl record empty

def line (f : ErrorFields) : String :=
  match f.message, f.code with
  | some message, some code => s!"{message} (SQLSTATE {code})"
  | some message, none => message
  | none, _ => "unknown server error"

end ErrorFields

structure ServerError where
  severity : String
  code : String
  message : String
  detail : Option String
  hint : Option String
  deriving Repr, DecidableEq

namespace ServerError

def ofFields (f : ErrorFields) : ServerError where
  severity := f.severity.getD "ERROR"
  code := f.code.getD "XX000"
  message := f.message.getD "unknown server error"
  detail := f.detail
  hint := f.hint

def parse (payload : Octets) : ServerError :=
  ofFields (ErrorFields.parse payload)

def category (e : ServerError) : Sqlstate.Class :=
  Sqlstate.classOf e.code

/-- The error in words, with the detail at the end. -/
def display (e : ServerError) : String :=
  let line := s!"{e.message} (SQLSTATE {e.code})"
  match e.detail with
  | none => line
  | some detail => s!"{line}: {detail}"

end ServerError

end PgFrontend
