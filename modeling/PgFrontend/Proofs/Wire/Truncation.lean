import PgFrontend.Proofs.Wire.Interruption
/-!
# Runs that run out of room

A run over a link that takes only so many octets, next to the run over the same link without a
limit.  The two do the same until a write does not fit: then the first one fails after what fits,
and what it has sent is the beginning of what the other one sends, up to the limit.  `Curtailable`
says this of anything that is done over a link, and is kept when such things are done one after
another.
-/

namespace PgFrontend

/-- The fault inside the layers that connecting puts around one. -/
def Fault.root : Fault → Fault
  | connect _ _ source => source.root
  | fault => fault

namespace Link

/-- The link with another limit to what can be written. -/
def withRoom (room : Option Nat) (l : Link) : Link :=
  { l with room }

@[simp] theorem sent_withRoom (room : Option Nat) (l : Link) :
    (l.withRoom room).sent = l.sent := rfl

@[simp] theorem withRoom_withRoom (room room' : Option Nat) (l : Link) :
    (l.withRoom room).withRoom room' = l.withRoom room' := rfl

theorem withRoom_eq {l : Link} {room : Option Nat} (h : l.room = room) : l.withRoom room = l := by
  cases l
  cases h
  rfl

/-- Over a link without a limit, so many more octets may be sent until there are `limit` of them in
all; a write after that would fail for `cause`. -/
structure Within (limit : Nat) (cause : TransferCause) (room : Nat) (l : Link) : Prop where
  room_eq : l.room = none
  interruption_eq : l.interruption = none
  cause_eq : l.writeCause = cause
  limit_eq : limit = l.sent.length + room

/-- How a run over a link with a limit relates to the same run without one. -/
inductive Curtailed {α : Type} (limit : Nat) (cause : TransferCause) :
    EStateM.Result Halt Link α → EStateM.Result Halt Link α → Prop
  | ok (a : α) {l : Link} {room : Nat} (hwithin : Within limit cause room l) :
      Curtailed limit cause (.ok a (l.withRoom (some room))) (.ok a l)
  | error (halt : Halt) {l : Link} {room : Nat} (hwithin : Within limit cause room l) :
      Curtailed limit cause (.error halt (l.withRoom (some room))) (.error halt l)
  /-- A write did not fit. -/
  | cut {fault : Fault} {l : Link} {r : EStateM.Result Halt Link α}
      (hcause : fault.root = .io cause) (hfull : l.room = some 0) (hfree : l.interruption = none)
      (hsent : l.sent = (linkAfter r).sent.take limit) (hmore : limit < (linkAfter r).sent.length) :
      Curtailed limit cause (.error (.fault fault) l) r

variable {α β : Type} {x : Wire α} {limit room : Nat} {cause : TransferCause} {l : Link}

theorem Within.sent_eq (h : Within limit cause room l) : l.sent = l.sent.take limit := by
  rw [List.take_of_length_le]
  rw [h.limit_eq]
  exact Nat.le_add_right _ _

theorem Within.sent_written (h : Within limit cause room l) (octets : Octets) :
    (l.written octets).sent = l.sent ++ octets := by
  rw [Link.sent_written, h.room_eq]
  rfl

/-- A write that fits leaves so much less room. -/
theorem Within.written {octets : Octets} (h : Within limit cause room l)
    (hfits : octets.length ≤ room) :
    Within limit cause (room - octets.length) (l.written octets) := by
  refine ⟨?_, h.interruption_eq, h.cause_eq, ?_⟩
  · show l.room.map _ = none
    rw [h.room_eq, Option.map_none]
  · rw [h.sent_written, h.limit_eq, List.length_append]
    omega

theorem Within.written_withRoom {octets : Octets} (h : Within limit cause room l)
    (hfits : octets.length ≤ room) :
    (l.withRoom (some room)).written octets =
      (l.written octets).withRoom (some (room - octets.length)) := by
  simp only [Link.written, withRoom, Option.map_some, Option.elim_some, h.room_eq,
    Option.elim_none, List.take_of_length_le hfits]

theorem Curtailed.sent_eq {r r₀ : EStateM.Result Halt Link α} (h : Curtailed limit cause r r₀) :
    (linkAfter r).sent = (linkAfter r₀).sent.take limit := by
  cases h with
  | ok _ hwithin =>
      have hsent := hwithin.sent_eq
      exact hsent
  | error _ hwithin =>
      have hsent := hwithin.sent_eq
      exact hsent
  | cut _ _ _ hsent _ => exact hsent

/-- What was sent stays sent. -/
def Grows (x : Wire α) : Prop :=
  ∀ l, l.sent <+: (linkAfter (x l)).sent

theorem Grows.bind {f : α → Wire β} (hx : Grows x) (hf : ∀ a, Grows (f a)) : Grows (x >>= f) := by
  intro l
  have hgrows := hx l
  cases hrun : x l with
  | ok a l₁ =>
      rw [hrun] at hgrows
      rw [bind_of_ok hrun]
      exact hgrows.trans (hf a l₁)
  | error halt l₁ =>
      rw [hrun] at hgrows
      rwa [bind_of_error hrun]

theorem Curtailed.bind {f : α → Wire β} {l' : Link} (hx : Curtailed limit cause (x l') (x l))
    (hf : ∀ a l₁ room, x l = .ok a l₁ → Within limit cause room l₁ →
      Curtailed limit cause (f a (l₁.withRoom (some room))) (f a l₁))
    (hgrows : ∀ a, Grows (f a)) : Curtailed limit cause ((x >>= f) l') ((x >>= f) l) := by
  generalize hlimited : x l' = r at hx
  generalize hrun : x l = r₀ at hx
  cases hx with
  | @ok a l₁ room hwithin =>
      rw [bind_of_ok hlimited, bind_of_ok hrun]
      exact hf a l₁ room hrun hwithin
  | error halt hwithin =>
      rw [bind_of_error hlimited, bind_of_error hrun]
      exact .error halt hwithin
  | cut hcause hfull hfree hsent hmore =>
      rw [bind_of_error hlimited]
      cases r₀ with
      | error halt l₁ =>
          rw [bind_of_error hrun]
          exact .cut hcause hfull hfree hsent hmore
      | ok a l₁ =>
          rw [bind_of_ok hrun]
          -- What is sent later comes after what was cut off.
          obtain ⟨later, hlater⟩ := hgrows a l₁
          have hmore : limit < l₁.sent.length := hmore
          refine .cut hcause hfull hfree ?_ ?_
          · rw [← hlater, List.take_append_of_le_length (Nat.le_of_lt hmore)]
            exact hsent
          · rw [← hlater, List.length_append]
            omega

/-- Something that does the same with and without a limit as long as what it writes fits. -/
structure Curtailable (x : Wire α) : Prop where
  grows : Grows x
  curtailed : ∀ {limit room : Nat} {cause : TransferCause} {l : Link}, Within limit cause room l →
    Curtailed limit cause (x (l.withRoom (some room))) (x l)

namespace Curtailable

theorem bind {f : α → Wire β} (hx : Curtailable x) (hf : ∀ a, Curtailable (f a)) :
    Curtailable (x >>= f) :=
  ⟨hx.grows.bind fun a => (hf a).grows, fun h =>
    (hx.curtailed h).bind (fun a _ _ _ h₁ => (hf a).curtailed h₁) fun a => (hf a).grows⟩

theorem pure (a : α) : Curtailable (Pure.pure a : Wire α) :=
  ⟨fun _ => List.prefix_refl _, fun h => .ok a h⟩

theorem throw (halt : Halt) : Curtailable (throwThe Halt halt : Wire α) :=
  ⟨fun _ => List.prefix_refl _, fun h => .error halt h⟩

theorem refuse (found : Option Fault) : Curtailable (Link.refuse found) := by
  cases found with
  | none => exact pure ()
  | some fault => exact throw (.fault fault)

/-- Something that looks at the link, but not at its limit. -/
theorem look {f : Link → Wire β} (hsame : ∀ room (l : Link), f (l.withRoom room) = f l)
    (hf : ∀ l, Curtailable (f l)) : Curtailable (MonadState.get >>= f) := by
  refine ⟨fun l => (hf l).grows l, fun {limit room cause l} h => ?_⟩
  show Curtailed limit cause (f (l.withRoom (some room)) (l.withRoom (some room))) (f l l)
  rw [hsame]
  exact (hf l).curtailed h

/-- A change to a link that has nothing to do with what is sent. -/
theorem adjust {g : Link → Link} (hsent : ∀ l : Link, (g l).sent = l.sent)
    (hsame : ∀ (room : Option Nat) (l : Link), g (l.withRoom room) = (g l).withRoom room)
    (hinterruption : ∀ l : Link, (g l).interruption = l.interruption)
    (hcause : ∀ l : Link, (g l).writeCause = l.writeCause) :
    Curtailable (modify g : Wire Unit) := by
  refine ⟨fun l => ?_, fun {limit room cause l} h => ?_⟩
  · show l.sent <+: (g l).sent
    exact hsent l ▸ List.prefix_refl (g l).sent
  · show Curtailed limit cause (.ok () (g (l.withRoom (some room)))) (.ok () (g l))
    rw [hsame]
    refine .ok () ⟨?_, (hinterruption l).trans h.interruption_eq, (hcause l).trans h.cause_eq, ?_⟩
    · have hroom := congrArg Link.room (hsame none l)
      rw [withRoom_eq h.room_eq] at hroom
      exact hroom
    · rw [hsent]
      exact h.limit_eq

theorem record {e : LinkEvent} (he : e.sentOctets = []) : Curtailable (Link.record e) := by
  refine adjust (fun l => ?_) (fun _ _ => rfl) (fun _ => rfl) fun _ => rfl
  show (l.log ++ [e]).flatMap LinkEvent.sentOctets = l.sent
  rw [sent_noted, he, List.append_nil]

/-! ## Transfers -/

theorem pause : Curtailable Link.pause := by
  refine ⟨fun l => Resumable.pause.steady.sent_mono l, fun {limit room cause l} h => ?_⟩
  have hlimited : Link.pause (l.withRoom (some room)) = .ok () (l.withRoom (some room)) :=
    pause_of_none h.interruption_eq
  rw [hlimited, pause_of_none h.interruption_eq]
  exact .ok () h

theorem readClosed : ReadClosed fun x => Curtailable x where
  pure := pure
  bind := bind
  pause := pause
  look hf := look (fun _ _ => rfl) fun l => hf l.arrived
  leave _ := adjust (fun _ => rfl) (fun _ _ => rfl) (fun _ => rfl) fun _ => rfl
  received _ := record rfl
  giveUp := look (fun _ _ => rfl) fun l => throw l.ending.halt
  misannounced _ := throw _

theorem readFrame : Curtailable Link.readFrame :=
  readClosed.readFrame

/-- A write that does not fit has put out the beginning of it that fits. -/
theorem write (octets : Octets) : Curtailable (Link.write octets) := by
  refine ⟨fun l => (Resumable.write octets).steady.sent_mono l, fun {limit room cause l} h => ?_⟩
  have hunlimited : Link.write octets l = .ok () (l.written octets) := by
    rw [write_eq octets h.interruption_eq, h.room_eq]
    rfl
  have hfree : (l.withRoom (some room)).interruption = none := h.interruption_eq
  have hlimited : Link.write octets (l.withRoom (some room)) =
      Link.refuse (if decide (room < octets.length) then some (.io cause) else none)
        ((l.withRoom (some room)).written octets) := by
    rw [write_eq octets hfree, ← h.cause_eq]
    rfl
  rw [hunlimited, hlimited]
  by_cases hmore : room < octets.length
  · rw [decide_eq_true hmore, if_pos rfl]
    have hout : ((l.withRoom (some room)).written octets).sent = l.sent ++ octets.take room :=
      sent_written octets _
    refine .cut rfl ?_ hfree ?_ ?_
    · show some (room - octets.length) = some 0
      rw [Nat.sub_eq_zero_of_le (Nat.le_of_lt hmore)]
    · show _ = (l.written octets).sent.take limit
      rw [hout, h.sent_written, h.limit_eq, List.take_length_add_append]
    · show limit < (l.written octets).sent.length
      rw [h.sent_written, h.limit_eq, List.length_append]
      omega
  · have hfits : octets.length ≤ room := Nat.not_lt.mp hmore
    rw [decide_eq_false hmore, h.written_withRoom hfits]
    exact .ok () (h.written hfits)

theorem pushOut : Curtailable Link.pushOut := by
  refine ⟨fun l => Resumable.pushOut.steady.sent_mono l, fun {limit room cause l} h => ?_⟩
  unfold Link.pushOut
  rw [show (l.withRoom (some room)).flushFault = l.flushFault from rfl,
    show (l.withRoom (some room)).flushes = l.flushes from rfl]
  cases l.flushFault with
  | none => exact .ok () h
  | some fault =>
      cases l.flushes with
      | zero => exact .error (.fault fault) h
      | succ n =>
          have hpushed :
              Within limit cause room { l with flushFault := some fault, flushes := n } :=
            ⟨h.room_eq, h.interruption_eq, h.cause_eq, h.limit_eq⟩
          exact .ok () hpushed

theorem transmit (octets : Octets) : Curtailable (Link.transmit octets) :=
  (write octets).bind fun _ => pause.bind fun _ => pushOut

theorem close : Curtailable Link.close :=
  (record rfl).bind fun _ => look (fun _ _ => rfl) fun l =>
    (refuse l.closeFault).bind fun _ => (transmit _).bind fun _ => record rfl

/-- Over a link that takes nothing any more, nothing more is sent. -/
theorem sent_of_full (hx : Curtailable x) {l : Link} (hfull : l.room = some 0)
    (hfree : l.interruption = none) : (linkAfter (x l)).sent = l.sent := by
  have hwithin : Within l.sent.length l.writeCause 0 (l.withRoom none) := ⟨rfl, hfree, rfl, rfl⟩
  have hsent := (hx.curtailed hwithin).sent_eq
  rw [withRoom_withRoom, withRoom_eq hfull] at hsent
  rw [hsent]
  exact (List.prefix_iff_eq_take.mp (hx.grows (l.withRoom none))).symm

end Curtailable

end Link

open Link in
/-- A conversation over a link with a limit is the beginning of the whole one. -/
theorem converse_curtailable {S R : Type} (rule : S → Frame → Turn S R) (state : S) :
    Curtailable (converse rule state) := by
  have hgrows (state : S) : Grows (converse rule state) :=
    fun l => (converse_resumable rule state).steady.sent_mono l
  have hproceed (turn : Turn S R) : Grows (proceed rule turn) := by
    cases turn with
    | wait next => exact hgrows next
    | send reply next => exact (Curtailable.transmit _).grows.bind fun _ => hgrows next
    | done result => exact (Curtailable.pure result).grows
    | fail fault => exact (Curtailable.throw (.fault fault)).grows
  refine ⟨hgrows state, fun {limit room cause l} h => ?_⟩
  induction hn : l.unread.length using Nat.strongRecOn generalizing state l room with
  | _ n ih =>
      subst hn
      rw [converse_eq, converse_eq]
      refine (Curtailable.readFrame.curtailed h).bind (fun f l₁ room₁ hread h₁ => ?_)
        fun f => hproceed _
      have hfewer := unread_readFrame_lt hread
      cases rule state f with
      | wait next => exact ih _ hfewer next h₁ rfl
      | done result => exact .ok result h₁
      | fail fault => exact .error (.fault fault) h₁
      | send reply next =>
          refine ((Curtailable.transmit reply.encode).curtailed h₁).bind
            (fun _ l₂ room₂ hwrite h₂ => ?_) fun _ => hgrows next
          have hkept := KeepsUnread.transmit _ hwrite
          exact ih _ (hkept ▸ hfewer) next h₂ rfl

end PgFrontend
