import PgFrontend.Proofs.Wire.Transfers
/-!
# Courses of conversations

What a conversation comes to, whatever its rule and whatever the link does: it reads some frames
and hands each of them to the rule, until the rule ends it or a transfer does not succeed.  `Course`
lists the ways in which this can go on and end, together with the frames that were read;
`exists_course` says that every conversation takes one of them, and `Course.converse_eq` that it
takes no other.
-/

namespace PgFrontend

variable {S R : Type}

/-- How a conversation goes on after a turn. -/
def proceed (rule : S → Frame → Turn S R) : Turn S R → Wire R
  | .wait next => converse rule next
  | .send reply next => Link.transmit reply.encode >>= fun _ => converse rule next
  | .done result => pure result
  | .fail fault => throw (.fault fault)

theorem converse_eq (rule : S → Frame → Turn S R) (state : S) (l : Link) :
    converse rule state l = (Link.readFrame >>= fun f => proceed rule (rule state f)) l := by
  cases hread : Link.readFrame l with
  | error halt l' =>
      rw [Link.bind_of_error hread, converse]
      split
      next herror =>
        cases hread.symm.trans herror
        rfl
      next hok => cases hread.symm.trans hok
  | ok f l' =>
      rw [Link.bind_of_ok hread, converse_of_read rule state hread]
      cases rule state f with
      | wait next => rfl
      | done result => rfl
      | fail fault => rfl
      | send reply next =>
          dsimp only
          cases hwrite : Link.transmit reply.encode l' with
          | error halt l₂ => exact (Link.bind_of_error hwrite).symm
          | ok _ l₂ => exact (Link.bind_of_ok (f := fun _ => converse rule next) hwrite).symm

/-- What a conversation comes to from a state and a link on, and the frames that it reads. -/
inductive Course (rule : S → Frame → Turn S R) :
    S → Link → List Frame → EStateM.Result Halt Link R → Prop
  /-- There is no further frame to be read. -/
  | stuck {state : S} {l l' : Link} {halt : Halt} (hread : Link.readFrame l = .error halt l') :
      Course rule state l [] (.error halt l')
  | done {state : S} {l l' : Link} {f : Frame} {result : R} (hread : Link.readFrame l = .ok f l')
      (hrule : rule state f = .done result) :
      Course rule state l [f] (.ok result l')
  | failed {state : S} {l l' : Link} {f : Frame} {fault : Fault}
      (hread : Link.readFrame l = .ok f l') (hrule : rule state f = .fail fault) :
      Course rule state l [f] (.error (.fault fault) l')
  /-- The reply to a frame does not go out. -/
  | unsent {state next : S} {l l₁ l' : Link} {f : Frame} {reply : ClientMessage} {halt : Halt}
      (hread : Link.readFrame l = .ok f l₁) (hrule : rule state f = .send reply next)
      (hwrite : Link.transmit reply.encode l₁ = .error halt l') :
      Course rule state l [f] (.error halt l')
  | waited {state next : S} {l l' : Link} {f : Frame} {frames : List Frame}
      {result : EStateM.Result Halt Link R} (hread : Link.readFrame l = .ok f l')
      (hrule : rule state f = .wait next) (rest : Course rule next l' frames result) :
      Course rule state l (f :: frames) result
  | sent {state next : S} {l l₁ l' : Link} {f : Frame} {reply : ClientMessage}
      {frames : List Frame} {result : EStateM.Result Halt Link R}
      (hread : Link.readFrame l = .ok f l₁) (hrule : rule state f = .send reply next)
      (hwrite : Link.transmit reply.encode l₁ = .ok () l')
      (rest : Course rule next l' frames result) :
      Course rule state l (f :: frames) result

/-- A conversation comes to nothing else. -/
theorem Course.converse_eq {rule : S → Frame → Turn S R} {state : S} {l : Link}
    {frames : List Frame} {result : EStateM.Result Halt Link R}
    (h : Course rule state l frames result) : converse rule state l = result := by
  induction h with
  | stuck hread => rw [PgFrontend.converse_eq, Link.bind_of_error hread]
  | done hread hrule => rw [converse_of_read rule _ hread, hrule]
  | failed hread hrule => rw [converse_of_read rule _ hread, hrule]
  | unsent hread hrule hwrite =>
      rw [converse_of_read rule _ hread, hrule]
      dsimp only
      rw [hwrite]
  | waited hread hrule _ ih =>
      rw [converse_of_read rule _ hread, hrule]
      exact ih
  | sent hread hrule hwrite _ ih =>
      rw [converse_of_read rule _ hread, hrule]
      dsimp only
      rw [hwrite]
      exact ih

theorem exists_course (rule : S → Frame → Turn S R) (state : S) (l : Link) :
    ∃ frames, Course rule state l frames (converse rule state l) := by
  -- Each frame that is read leaves fewer octets unread, and a reply leaves as many.
  induction hn : l.unread.length using Nat.strongRecOn generalizing state l with
  | _ n ih =>
      subst hn
      cases hread : Link.readFrame l with
      | error halt l' =>
          have hstuck : converse rule state l = .error halt l' := by
            rw [converse_eq, Link.bind_of_error hread]
          exact ⟨[], hstuck ▸ .stuck hread⟩
      | ok f l' =>
          have hfewer := Link.unread_readFrame_lt hread
          rw [converse_of_read rule state hread]
          cases hrule : rule state f with
          | wait next =>
              obtain ⟨frames, hcourse⟩ := ih _ hfewer next l' rfl
              exact ⟨f :: frames, .waited hread hrule hcourse⟩
          | done result => exact ⟨[f], .done hread hrule⟩
          | fail fault => exact ⟨[f], .failed hread hrule⟩
          | send reply next =>
              dsimp only
              cases hwrite : Link.transmit reply.encode l' with
              | error halt l₂ => exact ⟨[f], .unsent hread hrule hwrite⟩
              | ok _ l₂ =>
                  have hkept := Link.KeepsUnread.transmit _ hwrite
                  obtain ⟨frames, hcourse⟩ := ih _ (hkept ▸ hfewer) next l₂ rfl
                  exact ⟨f :: frames, .sent hread hrule hwrite hcourse⟩

end PgFrontend
