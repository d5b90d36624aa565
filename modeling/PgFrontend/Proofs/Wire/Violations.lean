import PgFrontend.Auth.Parser
import PgFrontend.Column.Basic
import PgFrontend.Column.DataRow
import PgFrontend.Proofs.Fault
import PgFrontend.Wire.Status
/-!
# Payloads that can not be read

A reader of payloads gives up with a violation of the protocol and with no other fault.
-/

namespace PgFrontend

open Octets

theorem Payload.text_fails (s : Octets) : FailsAs Fault.isProtocol (Payload.text s) := by
  unfold Payload.text
  split
  · exact .error rfl
  · split
    · exact .error rfl
    · exact .ok _

theorem Payload.field_fails (part : MessagePart) (size : Nat) (s : Octets) :
    FailsAs Fault.isProtocol (Payload.field part size s) := by
  unfold Payload.field
  split
  · exact .error rfl
  · exact .ok _

theorem Column.parse_fails (s : Octets) : FailsAs Fault.isProtocol (Column.parse s) := by
  refine (Payload.text_fails s).bind fun (name, s) => ?_
  refine (Payload.field_fails _ _ s).bind fun (f, rest) => ?_
  dsimp only
  split
  · exact .error rfl
  · exact .ok _

theorem Column.parseMany_fails (count : Nat) (s : Octets) :
    FailsAs Fault.isProtocol (Column.parseMany count s) := by
  induction count generalizing s with
  | zero => exact .ok _
  | succ count ih =>
      exact (Column.parse_fails s).bind fun (_, rest) => (ih rest).bind fun _ => .ok _

theorem Column.parseAll_fails (payload : Octets) :
    FailsAs Fault.isProtocol (Column.parseAll payload) := by
  refine (Payload.field_fails _ _ payload).bind fun (head, rest) => ?_
  dsimp only
  split
  · exact .error rfl
  · exact Column.parseMany_fails _ _

theorem DataRow.parseOne_fails (s : Octets) : FailsAs Fault.isProtocol (DataRow.parseOne s) := by
  refine (Payload.field_fails _ _ s).bind fun (head, s) => ?_
  dsimp only
  split
  · exact .ok _
  · exact (Payload.field_fails _ _ s).bind fun _ => .ok _

theorem DataRow.parseMany_fails (count : Nat) (s : Octets) :
    FailsAs Fault.isProtocol (DataRow.parseMany count s) := by
  induction count generalizing s with
  | zero => exact .ok _
  | succ count ih =>
      exact (DataRow.parseOne_fails s).bind fun (_, rest) => (ih rest).bind fun _ => .ok _

theorem DataRow.parse_fails (payload : Octets) :
    FailsAs Fault.isProtocol (DataRow.parse payload) := by
  refine (Payload.field_fails _ _ payload).bind fun (head, rest) => ?_
  dsimp only
  split
  · exact .error rfl
  · exact DataRow.parseMany_fails _ _

theorem commandTag_fails (payload : Octets) : FailsAs Fault.isProtocol (commandTag payload) :=
  (Payload.text_fails payload).bind fun _ => .ok _

theorem ParameterStatus.parse_fails (payload : Octets) :
    FailsAs Fault.isProtocol (ParameterStatus.parse payload) :=
  (Payload.text_fails payload).bind fun (_, rest) => (Payload.text_fails rest).bind fun _ => .ok _

theorem BackendKey.parse_fails (payload : Octets) :
    FailsAs Fault.isProtocol (BackendKey.parse payload) := by
  unfold BackendKey.parse
  split
  · exact .error rfl
  · exact .ok _

theorem AuthRequest.parse_fails (payload : Octets) :
    FailsAs Fault.isProtocol (AuthRequest.parse payload) := by
  have hcode : FailsAs Fault.isProtocol (AuthRequest.code payload) := by
    unfold AuthRequest.code
    split
    · exact .error rfl
    · exact .ok _
  refine hcode.bind fun found => ?_
  obtain ⟨code, rest⟩ := found
  dsimp only
  split
  case h_3 =>
    split
    · exact .error rfl
    · exact .ok _
  all_goals exact .ok _

end PgFrontend
