/-!
# Names of statements and portals

A prepared statement gets a name when its text is first seen and keeps it as long as the connection
lasts. Portals get a new name each time.
-/

namespace PgFrontend

structure StatementNames where
  names : List (String × String) := []
  next : UInt64 := 0
  deriving Repr, DecidableEq

namespace StatementNames

def find? (s : StatementNames) (sql : String) : Option String :=
  s.names.lookup sql

def insert (s : StatementNames) (sql : String) : String × StatementNames :=
  match s.find? sql with
  | some name => (name, s)
  | none =>
      let name := s!"S_{s.next.toNat}"
      (name, { names := (sql, name) :: s.names, next := s.next + 1 })

def size (s : StatementNames) : Nat :=
  s.names.length

end StatementNames

structure PortalNames where
  next : UInt64 := 0
  deriving Repr, DecidableEq

def PortalNames.draw (p : PortalNames) : String × PortalNames :=
  (s!"B_{p.next.toNat}", ⟨p.next + 1⟩)

end PgFrontend
