import PgFrontend.Proofs.Wire.Conduct
import PgFrontend.Proofs.Wire.Decoding
/-!
# Following a conversation

A conversation that goes on over frames which have arrived: as long as the rule does not end it, the
frames are taken off the stream one by one, and the replies go out in between.  `Passed` says what
that does to a link, and `follow` tells from the rule alone where it leads.  A conversation that
has come to its end has done nothing else, which is what `converse_eq_ok` says.
-/

namespace PgFrontend

namespace Link

/-- From one link to another, these octets have been read and those have been sent. -/
structure Passed (taken said : Octets) (l l' : Link) : Prop where
  unread_eq : l.unread = taken ++ l'.unread
  consumed_eq : l'.consumed = l.consumed ++ taken
  sent_eq : l'.sent = l.sent ++ said
  ending_eq : l'.ending = l.ending

variable {taken more said reply : Octets} {l l₁ l₂ : Link}

theorem Passed.refl (l : Link) : Passed [] [] l l :=
  ⟨rfl, (List.append_nil _).symm, (List.append_nil _).symm, rfl⟩

theorem Passed.trans (h : Passed taken said l l₁) (h' : Passed more reply l₁ l₂) :
    Passed (taken ++ more) (said ++ reply) l l₂ := by
  constructor
  · rw [h.unread_eq, h'.unread_eq, List.append_assoc]
  · rw [h'.consumed_eq, h.consumed_eq, List.append_assoc]
  · rw [h'.sent_eq, h.sent_eq, List.append_assoc]
  · rw [h'.ending_eq, h.ending_eq]

theorem Passed.unread_of_append {r : Octets} (h : Passed taken said l l₁)
    (hunread : l.unread = taken ++ r) : l₁.unread = r :=
  List.append_cancel_left (h.unread_eq.symm.trans hunread)

theorem Took.passed (h : Took taken l l₁) : Passed taken [] l l₁ :=
  ⟨h.unread_eq, h.consumed_eq, h.sent_eq.trans (List.append_nil _).symm, h.ending_eq⟩

theorem Open.mono {size bound : Nat} (h : l.Open bound) (hle : size ≤ bound) : l.Open size :=
  ⟨h.interruption_eq, h.flushFault_eq, fun room hroom =>
    Nat.le_trans hle (h.le_room room hroom)⟩

theorem transmit_passed {size : Nat} (octets : Octets) (h : l.Open (octets.length + size)) :
    ∃ l', transmit octets l = .ok () l' ∧ Passed [] octets l l' ∧ l'.Open size := by
  obtain ⟨l', htransmit, hwrote, hopen⟩ := transmit_wrote octets h
  have hsteady : Orderly (fun _ => True) (transmit octets) := .transmit (fun _ => trivial) octets
  have hending := (hsteady.moved_of_ok htransmit).ending_eq
  exact ⟨l', htransmit, ⟨hwrote.unread_eq.symm, hwrote.consumed_eq.trans (List.append_nil _).symm,
    hwrote.sent_eq, hending⟩, hopen⟩

end Link

open Link

variable {S R : Type}

/-- Where a rule leads over some frames, and its replies to them, unless one of the frames ends the
conversation. -/
def follow (rule : S → Frame → Turn S R) : S → List Frame → Option (S × List ClientMessage)
  | state, [] => some (state, [])
  | state, f :: frames =>
      match rule state f with
      | .wait next => follow rule next frames
      | .send reply next =>
          (follow rule next frames).map fun (last, replies) => (last, reply :: replies)
      | .done _ => none
      | .fail _ => none

theorem converse_follow {rule : S → Frame → Turn S R} {state last : S} {frames : List Frame}
    {replies : List ClientMessage} {size : Nat} {r : Octets} {l : Link}
    (h : follow rule state frames = some (last, replies)) (hfits : ∀ f ∈ frames, f.Fits)
    (hopen : l.Open ((replies.flatMap ClientMessage.encode).length + size))
    (hunread : l.unread = frames.flatMap Frame.encode ++ r) :
    ∃ l', converse rule state l = converse rule last l' ∧
      Passed (frames.flatMap Frame.encode) (replies.flatMap ClientMessage.encode) l l' ∧
      l'.Open size := by
  induction frames generalizing state replies l with
  | nil =>
      cases h
      refine ⟨l, rfl, .refl l, ?_⟩
      exact hopen.mono (Nat.le_add_left _ _)
  | cons f frames ih =>
      rw [List.forall_mem_cons] at hfits
      rw [List.flatMap_cons, List.append_assoc] at hunread
      obtain ⟨l₁, hread, htook⟩ := readFrame_took hfits.1 hunread hopen.interruption_eq
      have hunread₁ := htook.unread_of_append hunread
      have hopen₁ := hopen.took htook
      rw [follow] at h
      cases hrule : rule state f with
      | done result =>
          rw [hrule] at h
          cases h
      | fail fault =>
          rw [hrule] at h
          cases h
      | wait next =>
          rw [hrule] at h
          obtain ⟨l', hconverse, hpassed, hopen'⟩ := ih h hfits.2 hopen₁ hunread₁
          refine ⟨l', ?_, htook.passed.trans hpassed, hopen'⟩
          rw [converse_of_read rule state hread, hrule]
          exact hconverse
      | send reply next =>
          rw [hrule] at h
          obtain ⟨⟨_, more⟩, hfollow, heq⟩ := Option.map_eq_some_iff.mp h
          cases heq
          rw [List.flatMap_cons, List.length_append, Nat.add_assoc] at hopen₁
          obtain ⟨l₂, hwrite, hwrote, hopen₂⟩ := transmit_passed reply.encode hopen₁
          have hunread₂ := hwrote.unread_of_append hunread₁
          obtain ⟨l', hconverse, hpassed, hopen'⟩ := ih hfollow hfits.2 hopen₂ hunread₂
          refine ⟨l', ?_, htook.passed.trans (hwrote.trans hpassed), hopen'⟩
          rw [converse_of_read rule state hread, hrule]
          dsimp only
          rw [hwrite]
          exact hconverse

/-- How a conversation ends with a frame. -/
theorem converse_last (rule : S → Frame → Turn S R) (state : S) {f : Frame} {r : Octets}
    {l : Link} (hfits : f.Fits) (hunread : l.unread = f.encode ++ r)
    (hfree : l.interruption = none) :
    ∃ l', Passed f.encode [] l l' ∧
      (∀ result, rule state f = .done result → converse rule state l = .ok result l') ∧
      ∀ fault, rule state f = .fail fault → converse rule state l = .error (.fault fault) l' := by
  obtain ⟨l', hread, htook⟩ := readFrame_took hfits hunread hfree
  refine ⟨l', htook.passed, fun result hrule => ?_, fun fault hrule => ?_⟩
  · rw [converse_of_read rule state hread, hrule]
  · rw [converse_of_read rule state hread, hrule]

/-- How a conversation ends when there is no further frame. -/
theorem converse_torn (rule : S → Frame → Turn S R) (state : S) {fault : Fault} {l : Link}
    (hclosed : l.ending = .closed) (hfree : l.interruption = none)
    (h : Frame.decode l.unread = .error fault) :
    ∃ taken l', converse rule state l = .error (.fault fault) l' ∧ Passed taken [] l l' := by
  obtain ⟨taken, l', hread, htook⟩ := readFrame_torn hclosed hfree h
  refine ⟨taken, l', ?_, htook.passed⟩
  rw [converse_eq, bind_of_error hread]

/-! ## Conversations that have come to their end -/

namespace Link

variable {l l' : Link}

theorem readFrame_eq_ok {f : Frame} (hfree : l.interruption = none)
    (h : readFrame l = .ok f l') : f.Fits ∧ Took f.encode l l' := by
  cases hdecode : Frame.decode l.unread with
  | error fault =>
      obtain ⟨l₁, hread, -⟩ := readFrame_tornOff hfree hdecode
      cases hread.symm.trans h
  | ok found =>
      obtain ⟨g, r⟩ := found
      obtain ⟨hunread, hfits⟩ := Frame.decode_eq_ok hdecode
      obtain ⟨l₁, hread, htook⟩ := readFrame_took hfits hunread hfree
      cases hread.symm.trans h
      exact ⟨hfits, htook⟩

theorem write_eq_ok {octets : Octets} (hfree : l.interruption = none)
    (h : write octets l = .ok () l') : Passed [] octets l l' := by
  rw [write_eq octets hfree] at h
  cases hroom : l.room.any (· < octets.length) with
  | true =>
      rw [hroom] at h
      cases h
  | false =>
      rw [hroom] at h
      cases h
      exact ⟨rfl, (consumed_written octets l).trans (List.append_nil _).symm,
        sent_written_whole hroom, rfl⟩

theorem pushOut_eq_ok (h : pushOut l = .ok () l') : Passed [] [] l l' := by
  unfold pushOut at h
  split at h
  · cases h
    exact .refl l
  · cases h
  · cases h
    exact ⟨rfl, (List.append_nil _).symm, (List.append_nil _).symm, rfl⟩

theorem transmit_eq_ok {octets : Octets} (hfree : l.interruption = none)
    (h : transmit octets l = .ok () l') : Passed [] octets l l' ∧ l'.interruption = none := by
  have hsteady : Orderly (fun _ => True) (transmit octets) := .transmit (fun _ => trivial) octets
  refine ⟨?_, (hsteady.moved_of_ok h).interruption_eq hfree⟩
  obtain ⟨_, l₁, hwrite, hflush⟩ := bind_eq_ok h
  have hwrote := write_eq_ok hfree hwrite
  have hsteady₁ : Orderly (fun _ => True) (write octets) := .write (fun _ => trivial) octets
  have hfree₁ := (hsteady₁.moved_of_ok hwrite).interruption_eq hfree
  rw [flush, bind_of_ok (pause_of_none hfree₁)] at hflush
  have hboth := hwrote.trans (pushOut_eq_ok hflush)
  rwa [List.append_nil, List.append_nil] at hboth

end Link

/-- A conversation that ends with a result has followed the rule over some frames, and a last frame
gave the result. -/
theorem converse_eq_ok {rule : S → Frame → Turn S R} {state : S} {result : R} {l l' : Link}
    (hfree : l.interruption = none) (h : converse rule state l = .ok result l') :
    ∃ frames f last replies, follow rule state frames = some (last, replies) ∧
      rule last f = .done result ∧ (∀ g ∈ frames ++ [f], g.Fits) ∧
      Passed ((frames ++ [f]).flatMap Frame.encode) (replies.flatMap ClientMessage.encode) l l' ∧
      l'.interruption = none := by
  obtain ⟨read, hcourse⟩ := exists_course rule state l
  rw [h] at hcourse
  generalize hresult : EStateM.Result.ok result l' = r at hcourse
  clear h
  induction hcourse with
  | stuck _ => cases hresult
  | failed _ _ => cases hresult
  | unsent _ _ _ => cases hresult
  | @done state l l₁ f _ hread hrule =>
      cases hresult
      obtain ⟨hfits, htook⟩ := readFrame_eq_ok hfree hread
      refine ⟨[], f, state, [], rfl, hrule, List.forall_mem_singleton.mpr hfits, ?_,
        htook.interruption_eq.trans hfree⟩
      rw [List.nil_append, List.flatMap_singleton]
      exact htook.passed
  | @waited state next l l₁ f _ _ hread hrule _ ih =>
      obtain ⟨hfits, htook⟩ := readFrame_eq_ok hfree hread
      obtain ⟨frames, g, last, replies, hfollow, hdone, hrest, hpassed, hfree'⟩ :=
        ih (htook.interruption_eq.trans hfree) hresult
      refine ⟨f :: frames, g, last, replies, ?_, hdone, List.forall_mem_cons.mpr ⟨hfits, hrest⟩,
        htook.passed.trans hpassed, hfree'⟩
      rw [follow, hrule]
      exact hfollow
  | @sent state next l l₁ l₂ f reply _ _ hread hrule hwrite _ ih =>
      obtain ⟨hfits, htook⟩ := readFrame_eq_ok hfree hread
      obtain ⟨hwrote, hfree₂⟩ := transmit_eq_ok (htook.interruption_eq.trans hfree) hwrite
      obtain ⟨frames, g, last, replies, hfollow, hdone, hrest, hpassed, hfree'⟩ :=
        ih hfree₂ hresult
      refine ⟨f :: frames, g, last, reply :: replies, ?_, hdone,
        List.forall_mem_cons.mpr ⟨hfits, hrest⟩, htook.passed.trans (hwrote.trans hpassed), hfree'⟩
      rw [follow, hrule]
      dsimp only
      rw [hfollow]
      rfl

end PgFrontend
