import PgFrontend.Wire.Link.Unread
/-!
# Conversations

A conversation reads one frame after another and hands each to a rule that knows nothing of links;
the rule says whether to answer, to wait, or to end. Each frame leaves fewer octets unread, so
every conversation ends.
-/

namespace PgFrontend

/-- What a rule makes of a frame: `S` is what it remembers, `R` what the conversation is about. -/
inductive Turn (S R : Type)
  | wait (state : S)
  | send (reply : ClientMessage) (state : S)
  | done (result : R)
  | fail (fault : Fault)

def converse {S R : Type} (rule : S → Frame → Turn S R) (state : S) (l : Link) :
    EStateM.Result Halt Link R :=
  match _read : Link.readFrame l with
  | .error halt l => .error halt l
  | .ok frame l =>
      match rule state frame with
      | .wait state => converse rule state l
      | .send reply state =>
          match _written : Link.transmit reply.encode l with
          | .error halt l => .error halt l
          | .ok _ l => converse rule state l
      | .done result => .ok result l
      | .fail fault => .error (.fault fault) l
termination_by l.unread.length
decreasing_by
  · exact Link.unread_readFrame_lt _read
  · rw [Link.KeepsUnread.transmit _ _written]
    exact Link.unread_readFrame_lt _read

/-- Reads frames until that does not succeed any more, and tells why it does not. -/
def Link.readFrames (l : Link) : List Frame × Halt × Link :=
  match _read : Link.readFrame l with
  | .error halt l => ([], halt, l)
  | .ok frame l =>
      let (frames, halt, l) := readFrames l
      (frame :: frames, halt, l)
termination_by l.unread.length
decreasing_by exact Link.unread_readFrame_lt _read

end PgFrontend
