import PgFrontend.Proofs.Fault
import PgFrontend.Proofs.Wire.Closure
import PgFrontend.Proofs.Wire.Course
/-!
# The conduct of transfers

What reading, writing and conversing leave alone, whether they succeed or not: nothing but reads and
writes is added to the log, and a transfer is left waiting only if the server falls silent or the
stop signal comes.  `Orderly` says this of anything that is done over a link, together with the
faults that may come of it, and is kept when such things are done one after another.
-/

namespace PgFrontend

/-- Whether an event is a read or a write. -/
def LinkEvent.isTransfer : LinkEvent → Bool
  | received _ => true
  | sent _ => true
  | _ => false

namespace Link

/-- Since one link, only reads and writes have been added to the log. -/
def Transferred (l l' : Link) : Prop :=
  ∃ transfers, l'.log = l.log ++ transfers ∧ ∀ e ∈ transfers, e.isTransfer = true

/-- From one link to another, only reads and writes have been made. -/
structure Moved (l l' : Link) : Prop where
  transferred : l.Transferred l'
  ending_eq : l'.ending = l.ending
  flushFault_eq : l'.flushFault = l.flushFault
  interruption_eq : l.interruption = none → l'.interruption = none

namespace Moved

variable {l l₁ l₂ : Link}

theorem of_log_eq (hlog : l₁.log = l.log) (hending : l₁.ending = l.ending)
    (hflush : l₁.flushFault = l.flushFault)
    (hfree : l.interruption = none → l₁.interruption = none) : l.Moved l₁ := by
  refine ⟨⟨[], ?_, ?_⟩, hending, hflush, hfree⟩
  · rw [hlog, List.append_nil]
  · intro e he
    cases he

theorem refl (l : Link) : l.Moved l :=
  of_log_eq rfl rfl rfl id

theorem trans (h : l.Moved l₁) (h' : l₁.Moved l₂) : l.Moved l₂ := by
  obtain ⟨transfers, hlog, htransfers⟩ := h.transferred
  obtain ⟨more, hlog', hmore⟩ := h'.transferred
  refine ⟨⟨transfers ++ more, ?_, ?_⟩, ?_, ?_, ?_⟩
  · rw [hlog', hlog, List.append_assoc]
  · intro e he
    rcases List.mem_append.mp he with he | he
    · exact htransfers e he
    · exact hmore e he
  · rw [h'.ending_eq, h.ending_eq]
  · rw [h'.flushFault_eq, h.flushFault_eq]
  · exact fun hfree => h'.interruption_eq (h.interruption_eq hfree)

theorem record (l : Link) {e : LinkEvent} (he : e.isTransfer = true) :
    l.Moved { l with log := l.log ++ [e] } := by
  refine ⟨⟨[e], rfl, ?_⟩, rfl, rfl, id⟩
  intro e' he'
  rw [List.mem_singleton.mp he']
  exact he

/-- What was sent stays sent. -/
theorem sent_mono (h : l.Moved l₁) : l.sent <+: l₁.sent := by
  obtain ⟨transfers, hlog, -⟩ := h.transferred
  refine ⟨transfers.flatMap LinkEvent.sentOctets, ?_⟩
  rw [sent, sent, hlog, List.flatMap_append]

end Moved

/-- How something that is done over a link may come to a halt: with a fault of its own, with what
goes wrong when octets are pushed out, or waiting. -/
def MayHalt (l : Link) (arises : Fault → Prop) : Halt → Prop
  | .fault fault => arises fault ∨ l.flushFault = some fault
  | .waiting => l.interruption ≠ none ∨ l.ending = .silent

theorem Moved.mayHalt {l l₁ : Link} {arises : Fault → Prop} {halt : Halt} (h : l.Moved l₁)
    (hhalt : l₁.MayHalt arises halt) : l.MayHalt arises halt := by
  cases halt with
  | fault fault => exact hhalt.imp_right h.flushFault_eq.symm.trans
  | waiting =>
      rcases hhalt with hinterrupted | hsilent
      · exact .inl fun hfree => hinterrupted (h.interruption_eq hfree)
      · exact .inr (h.ending_eq.symm.trans hsilent)

def linkAfter {α : Type} : EStateM.Result Halt Link α → Link
  | .ok _ l => l
  | .error _ l => l

/-- What is made of a result leaves the link alone. -/
theorem linkAfter_bind_pure {α β : Type} (x : Wire α) (f : α → β) (l : Link) :
    linkAfter ((x >>= fun a => pure (f a)) l) = linkAfter (x l) := by
  cases hx : x l with
  | ok a l' =>
      rw [bind_of_ok hx]
      rfl
  | error halt l' =>
      rw [bind_of_error hx]
      rfl

/-- What comes of something that only reads and writes. -/
inductive Conducted {α : Type} (arises : Fault → Prop) (l : Link) :
    EStateM.Result Halt Link α → Prop
  | ok {a : α} {l' : Link} (hmoved : l.Moved l') : Conducted arises l (.ok a l')
  | error {halt : Halt} {l' : Link} (hmoved : l.Moved l') (hhalt : l.MayHalt arises halt) :
      Conducted arises l (.error halt l')

theorem Conducted.of_moved {α : Type} {arises : Fault → Prop} {l l₁ : Link}
    {r : EStateM.Result Halt Link α} (hmoved : l.Moved l₁) (h : Conducted arises l₁ r) :
    Conducted arises l r := by
  cases h with
  | ok hmoved' => exact .ok (hmoved.trans hmoved')
  | error hmoved' hhalt => exact .error (hmoved.trans hmoved') (hmoved.mayHalt hhalt)

theorem Conducted.moved {α : Type} {arises : Fault → Prop} {l : Link}
    {r : EStateM.Result Halt Link α} (h : Conducted arises l r) : l.Moved (linkAfter r) := by
  cases h with
  | ok hmoved => exact hmoved
  | error hmoved _ => exact hmoved

def Orderly {α : Type} (arises : Fault → Prop) (x : Wire α) : Prop :=
  ∀ l, Conducted arises l (x l)

namespace Orderly

variable {α β : Type} {arises : Fault → Prop} {x : Wire α}

theorem moved_of_ok {l l' : Link} {a : α} (h : Orderly arises x) (hx : x l = .ok a l') :
    l.Moved l' := by
  have hconducted := h l
  rw [hx] at hconducted
  cases hconducted with
  | ok hmoved => exact hmoved

theorem moved_of_error {l l' : Link} {halt : Halt} (h : Orderly arises x)
    (hx : x l = .error halt l') : l.Moved l' := by
  have hconducted := h l
  rw [hx] at hconducted
  cases hconducted with
  | error hmoved _ => exact hmoved

theorem mayHalt {l l' : Link} {halt : Halt} (h : Orderly arises x) (hx : x l = .error halt l') :
    l.MayHalt arises halt := by
  have hconducted := h l
  rw [hx] at hconducted
  cases hconducted with
  | error _ hhalt => exact hhalt

theorem bind {f : α → Wire β} (hx : Orderly arises x) (hf : ∀ a, Orderly arises (f a)) :
    Orderly arises (x >>= f) := by
  intro l
  cases hrun : x l with
  | ok a l₁ =>
      rw [bind_of_ok hrun]
      exact (hf a l₁).of_moved (hx.moved_of_ok hrun)
  | error halt l₁ =>
      rw [bind_of_error hrun]
      exact .error (hx.moved_of_error hrun) (hx.mayHalt hrun)

theorem pure (a : α) : Orderly arises (Pure.pure a : Wire α) :=
  fun l => .ok (.refl l)

theorem throw {fault : Fault} (h : arises fault) :
    Orderly arises (throwThe Halt (.fault fault) : Wire α) :=
  fun l => .error (.refl l) (.inl h)

theorem get : Orderly arises (MonadState.get : Wire Link) :=
  fun l => .ok (.refl l)

theorem adjust {g : Link → Link} (h : ∀ l : Link, l.Moved (g l)) :
    Orderly arises (modify g : Wire Unit) :=
  fun l => .ok (h l)

theorem refuse {found : Option Fault} (h : ∀ fault ∈ found, arises fault) :
    Orderly arises (Link.refuse found) := by
  cases found with
  | none => exact pure ()
  | some fault => exact throw (h fault rfl)

theorem record {e : LinkEvent} (he : e.isTransfer = true) : Orderly arises (Link.record e) :=
  adjust fun l => .record l he

/-! ## Transfers -/

/-- A wait may be cut short only if a stop signal comes. -/
theorem wait {before : Nat → Wire Unit} (h : ∀ written, Orderly arises (before written)) :
    Orderly arises (Link.wait before) := by
  intro l
  cases hinterruption : l.interruption with
  | none =>
      rw [Link.wait, hinterruption]
      exact .ok (.refl l)
  | some interruption =>
      have hcomes : l.interruption ≠ none := by
        rw [hinterruption]
        exact Option.some_ne_none _
      obtain ⟨_ | transfers, written⟩ := interruption
      · have hcut : Orderly arises (before written) := h written
        rw [Link.wait, hinterruption]
        show Conducted arises l ((before written >>= fun _ => throwThe Halt .waiting) l)
        cases hrun : before written l with
        | ok _ l₁ =>
            rw [bind_of_ok hrun]
            exact .error (hcut.moved_of_ok hrun) (.inl hcomes)
        | error halt l₁ =>
            rw [bind_of_error hrun]
            exact .error (hcut.moved_of_error hrun) (hcut.mayHalt hrun)
      · rw [Link.wait, hinterruption]
        exact .ok (.of_log_eq rfl rfl rfl fun hfree => absurd hfree hcomes)

theorem pause : Orderly arises Link.pause :=
  wait fun _ => pure ()

variable (hio : ∀ cause, arises (.io cause))
include hio

/-- The end of a read that finds nothing any more. -/
theorem giveUp : Orderly arises
    (MonadState.get >>= fun l => throwThe Halt l.ending.halt : Wire α) := by
  intro l
  show Conducted arises l (.error l.ending.halt l)
  refine .error (.refl l) ?_
  cases hending : l.ending with
  | closed => exact .inl (hio _)
  | broken text => exact .inl (hio _)
  | silent => exact .inr hending

theorem readClosed (hprotocol : ∀ violation, arises (.protocol violation)) :
    ReadClosed fun x => Orderly arises x where
  pure := pure
  bind := bind
  pause := pause
  look hf := get.bind fun l => hf l.arrived
  leave _ := adjust fun _ => .of_log_eq rfl rfl rfl id
  received _ := record rfl
  giveUp := giveUp hio
  misannounced _ := throw (hprotocol _)

theorem readFrame (hprotocol : ∀ violation, arises (.protocol violation)) :
    Orderly arises Link.readFrame :=
  (readClosed hio hprotocol).readFrame

omit hio in
theorem put (octets : Octets) : Orderly arises (Link.put octets) := by
  intro l
  unfold Link.put
  split
  · exact .ok (.record l rfl)
  next room _ =>
    have hroom : l.Moved { l with room := some (room - octets.length) } :=
      .of_log_eq rfl rfl rfl id
    exact .ok (hroom.trans (.record _ rfl))

omit hio in
theorem pushOut : Orderly arises Link.pushOut := by
  intro l
  unfold Link.pushOut
  split
  · exact .ok (.refl l)
  next fault hfault _ => exact .error (.refl l) (.inr hfault)
  · exact .ok (.of_log_eq rfl rfl rfl id)

theorem write (octets : Octets) : Orderly arises (Link.write octets) := by
  refine (wait fun _ => put _).bind fun _ => get.bind fun l => (put _).bind fun _ => refuse ?_
  intro fault hfault
  split at hfault
  · cases hfault
    exact hio _
  · cases hfault

theorem transmit (octets : Octets) : Orderly arises (Link.transmit octets) :=
  (write hio octets).bind fun _ => pause.bind fun _ => pushOut

end Orderly

end Link

/-- The faults with which a rule ends a conversation, as long as its states keep an invariant. -/
structure FailsWith {S R : Type} (arises : Fault → Prop) (invariant : S → Prop)
    (rule : S → Frame → Turn S R) : Prop where
  wait : ∀ state f next, invariant state → rule state f = .wait next → invariant next
  send : ∀ state f reply next, invariant state → rule state f = .send reply next → invariant next
  fail : ∀ state f fault, invariant state → rule state f = .fail fault → arises fault

/-- A conversation does nothing but read and write, and its faults are those of its transfers and
of its rule. -/
theorem converse_orderly {S R : Type} {arises : Fault → Prop} {invariant : S → Prop}
    {rule : S → Frame → Turn S R} (hio : ∀ cause, arises (.io cause))
    (hprotocol : ∀ violation, arises (.protocol violation))
    (hrule : FailsWith arises invariant rule) {state : S} (hstate : invariant state) :
    Link.Orderly arises (converse rule state) := by
  intro l
  have hread := Link.Orderly.readFrame hio hprotocol
  have hsend (reply : ClientMessage) := Link.Orderly.transmit hio reply.encode
  obtain ⟨frames, hcourse⟩ := exists_course rule state l
  generalize converse rule state l = result at hcourse
  induction hcourse with
  | stuck hstuck => exact .error (hread.moved_of_error hstuck) (hread.mayHalt hstuck)
  | done hframe _ => exact .ok (hread.moved_of_ok hframe)
  | failed hframe hfails =>
      exact .error (hread.moved_of_ok hframe) (.inl (hrule.fail _ _ _ hstate hfails))
  | unsent hframe _ hwrite =>
      have hmoved := hread.moved_of_ok hframe
      exact .error (hmoved.trans ((hsend _).moved_of_error hwrite))
        (hmoved.mayHalt ((hsend _).mayHalt hwrite))
  | waited hframe hwaits _ ih =>
      exact (ih (hrule.wait _ _ _ hstate hwaits)).of_moved (hread.moved_of_ok hframe)
  | sent hframe hreplies hwrite _ ih =>
      have hmoved := (hread.moved_of_ok hframe).trans ((hsend _).moved_of_ok hwrite)
      exact (ih (hrule.send _ _ _ _ hstate hreplies)).of_moved hmoved

end PgFrontend
