/-!
# Column formats

A column or parameter crosses the wire in text format or in binary format.
-/

namespace PgFrontend

inductive Format
  | text
  | binary
  deriving Repr, DecidableEq

namespace Format

def code : Format → Int16
  | text => 0
  | binary => 1

def ofCode? (code : Int16) : Option Format :=
  if code = 0 then some text else if code = 1 then some binary else none

@[simp] theorem ofCode?_code (format : Format) : ofCode? format.code = some format := by
  cases format <;> rfl

theorem code_of_ofCode? {code : Int16} {format : Format} (h : ofCode? code = some format) :
    format.code = code := by
  unfold ofCode? at h
  split at h
  · cases h; simp_all [Format.code]
  · split at h
    · cases h; simp_all [Format.code]
    · cases h

def display : Format → String
  | text => "text"
  | binary => "binary"

def label : Format → String
  | text => "Text"
  | binary => "Binary"

end Format

inductive ValueKind
  | text
  | blob
  deriving Repr, DecidableEq

def ValueKind.label : ValueKind → String
  | text => "Text"
  | blob => "Blob"

end PgFrontend
