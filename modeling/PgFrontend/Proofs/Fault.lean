import PgFrontend.Fault
/-!
# Computations that may fail

How a chain of computations comes to succeed: each of them did.  And how it comes to fail: one of
them did, so that its faults are of the sort that the parts have.  Payloads that can not be read
violate the protocol; all that goes wrong with messages and answers to them is `Fault.isOfSession`,
and wraps no other fault.
-/

namespace PgFrontend

theorem bind_eq_ok_iff {ε α β : Type} {x : Except ε α} {f : α → Except ε β} {b : β} :
    (x >>= f) = .ok b ↔ ∃ a, x = .ok a ∧ f a = .ok b := by
  cases x with
  | error e =>
      constructor
      · intro h
        cases h
      · rintro ⟨a, h, -⟩
        cases h
  | ok a =>
      constructor
      · exact fun h => ⟨a, rfl, h⟩
      · rintro ⟨a', h, hf⟩
        cases h
        exact hf

theorem map_eq_ok_iff {ε α β : Type} {x : Except ε α} {f : α → β} {b : β} :
    x.map f = .ok b ↔ ∃ a, x = .ok a ∧ f a = b := by
  cases x with
  | error e =>
      constructor
      · intro h
        cases h
      · rintro ⟨a, h, -⟩
        cases h
  | ok a =>
      constructor
      · exact fun h => ⟨a, rfl, Except.ok.inj h⟩
      · rintro ⟨a', h, rfl⟩
        cases h
        rfl

namespace Fault

/-- Whether a fault comes from the transfers and the messages of a session, and wraps no other. -/
def isOfSession : Fault → Bool
  | io _ => true
  | protocol _ => true
  | server _ => true
  | auth _ => true
  | unsupportedAuthentication _ => true
  | internal _ => true
  | _ => false

def isProtocol : Fault → Bool
  | protocol _ => true
  | _ => false

theorem isOfSession_of_isProtocol {f : Fault} (h : f.isProtocol = true) :
    f.isOfSession = true := by
  cases f with
  | protocol violation => rfl
  | _ => cases h

theorem exists_violation_of_isProtocol {f : Fault} (h : f.isProtocol = true) :
    ∃ violation, f = protocol violation := by
  cases f with
  | protocol violation => exact ⟨violation, rfl⟩
  | _ => cases h

theorem not_isServer_of_isProtocol {f : Fault} (h : f.isProtocol = true) :
    f.isServer = false := by
  cases f with
  | protocol violation => rfl
  | _ => cases h

theorem not_isServer_of_isIo {f : Fault} (h : f.isIo = true) : f.isServer = false := by
  cases f with
  | io cause => rfl
  | _ => cases h

end Fault

/-- All faults of a computation are of one sort. -/
def FailsAs {α : Type} (sort : Fault → Bool) (x : Except Fault α) : Prop :=
  ∀ fault, x = .error fault → sort fault = true

abbrev FailsInSession {α : Type} (x : Except Fault α) : Prop :=
  FailsAs Fault.isOfSession x

namespace FailsAs

variable {α β : Type} {sort : Fault → Bool}

theorem ok (a : α) : FailsAs sort (.ok a : Except Fault α) := by
  intro fault h
  cases h

theorem error {fault : Fault} (h : sort fault = true) :
    FailsAs sort (.error fault : Except Fault α) := by
  intro fault' heq
  cases heq
  exact h

theorem bind {x : Except Fault α} {f : α → Except Fault β} (hx : FailsAs sort x)
    (hf : ∀ a, FailsAs sort (f a)) : FailsAs sort (x >>= f) := by
  cases x with
  | error fault => exact error (hx fault rfl)
  | ok a => exact hf a

theorem map {x : Except Fault α} (hx : FailsAs sort x) (f : α → β) : FailsAs sort (x.map f) := by
  cases x with
  | error fault => exact error (hx fault rfl)
  | ok a => exact ok (f a)

/-- A reader of payloads that does not succeed finds a violation. -/
theorem exists_violation {x : Except Fault α} (h : FailsAs Fault.isProtocol x)
    (hnone : ∀ a, x ≠ .ok a) : ∃ violation, x = .error (.protocol violation) := by
  cases x with
  | error fault =>
      obtain ⟨violation, rfl⟩ := Fault.exists_violation_of_isProtocol (h fault rfl)
      exact ⟨violation, rfl⟩
  | ok a => exact absurd rfl (hnone a)

theorem inSession {x : Except Fault α} (h : FailsAs Fault.isProtocol x) : FailsInSession x :=
  fun fault hfault => Fault.isOfSession_of_isProtocol (h fault hfault)

end FailsAs

end PgFrontend
