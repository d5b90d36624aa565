import PgFrontend.Proofs.Wire.Conduct
/-!
# Runs that a stop signal cuts short

A run over a link to which a stop signal comes, next to the run over the same link without the
signal.  The two do the same up to the wait at which the signal comes: if it is not heard, they end
alike, and if it is, what was sent by then is the beginning of what the other run sends.
`Resumable` says this of anything that is done over a link, and is kept when such things are done
one after another.
-/

namespace PgFrontend

namespace Link

/-- The link without the stop signal. -/
def free (l : Link) : Link :=
  { l with interruption := none }

@[simp] theorem sent_free (l : Link) : l.free.sent = l.sent := rfl

theorem free_eq {l : Link} (h : l.interruption = none) : l.free = l := by
  cases l
  cases h
  rfl

/-- How a run relates to the same run without the stop signal. -/
inductive Foretells {α : Type} :
    EStateM.Result Halt Link α → EStateM.Result Halt Link α → Prop
  | ok (a : α) (l : Link) : Foretells (.ok a l) (.ok a l.free)
  | fault (fault : Fault) (l : Link) :
      Foretells (.error (.fault fault) l) (.error (.fault fault) l.free)
  | waiting {l : Link} {r : EStateM.Result Halt Link α} (hsent : l.sent <+: (linkAfter r).sent) :
      Foretells (.error .waiting l) r

variable {α β : Type} {x : Wire α}

abbrev Steady (x : Wire α) : Prop :=
  Orderly (fun _ => True) x

theorem Steady.sent_mono (h : Steady x) (l : Link) : l.sent <+: (linkAfter (x l)).sent :=
  (h l).moved.sent_mono

/-- A run to which no signal comes foretells itself. -/
theorem Foretells.of_free (h : Steady x) {l : Link} (hfree : l.interruption = none) :
    Foretells (x l) (x l.free) := by
  rw [free_eq hfree]
  have hmoved := (h l).moved
  generalize x l = r at hmoved ⊢
  have hsame : (linkAfter r).free = linkAfter r := free_eq (hmoved.interruption_eq hfree)
  cases r with
  | ok a l' =>
      have hok : Foretells (.ok a l') (.ok a l'.free) := .ok a l'
      rwa [show l'.free = l' from hsame] at hok
  | error halt l' =>
      cases halt with
      | waiting => exact .waiting (List.prefix_refl _)
      | fault fault =>
          have hfault := Foretells.fault (α := α) fault l'
          rwa [show l'.free = l' from hsame] at hfault

theorem Foretells.bind {f : α → Wire β} {l l₀ : Link} (hx : Foretells (x l) (x l₀))
    (hf : ∀ a l₁, x l = .ok a l₁ → Foretells (f a l₁) (f a l₁.free))
    (hsteady : ∀ a, Steady (f a)) : Foretells ((x >>= f) l) ((x >>= f) l₀) := by
  generalize hrun : x l = r at hx
  generalize hfree : x l₀ = r₀ at hx
  cases hx with
  | ok a l₁ =>
      rw [bind_of_ok hrun, bind_of_ok hfree]
      exact hf a l₁ hrun
  | fault fault l₁ =>
      rw [bind_of_error hrun, bind_of_error hfree]
      exact .fault fault l₁
  | @waiting l₁ _ hsent =>
      rw [bind_of_error hrun]
      refine .waiting ?_
      cases r₀ with
      | error halt l₂ =>
          rw [bind_of_error hfree]
          exact hsent
      | ok a l₂ =>
          rw [bind_of_ok hfree]
          exact hsent.trans ((hsteady a).sent_mono l₂)

/-- Something that only reads and writes, and that does the same with and without the stop signal
as long as the signal does not come. -/
structure Resumable (x : Wire α) : Prop where
  steady : Steady x
  foretells : ∀ l : Link, Foretells (x l) (x l.free)

namespace Resumable

theorem bind {f : α → Wire β} (hx : Resumable x) (hf : ∀ a, Resumable (f a)) :
    Resumable (x >>= f) :=
  ⟨hx.steady.bind fun a => (hf a).steady, fun l =>
    (hx.foretells l).bind (fun a l₁ _ => (hf a).foretells l₁) fun a => (hf a).steady⟩

theorem pure (a : α) : Resumable (Pure.pure a : Wire α) :=
  ⟨.pure a, fun l => .ok a l⟩

theorem throw (fault : Fault) : Resumable (throwThe Halt (.fault fault) : Wire α) :=
  ⟨.throw trivial, fun l => .fault fault l⟩

theorem refuse (found : Option Fault) : Resumable (Link.refuse found) := by
  cases found with
  | none => exact pure ()
  | some fault => exact throw fault

/-- Something that looks at the link, but not at the stop signal. -/
theorem look {f : Link → Wire β} (hsame : ∀ l : Link, f l.free = f l)
    (hf : ∀ l, Resumable (f l)) : Resumable (MonadState.get >>= f) := by
  refine ⟨Orderly.get.bind fun l => (hf l).steady, fun l => ?_⟩
  show Foretells (f l l) (f l.free l.free)
  rw [hsame]
  exact (hf l).foretells l

theorem adjust {g : Link → Link} (hmoved : ∀ l : Link, l.Moved (g l))
    (hsame : ∀ l : Link, g l.free = (g l).free) : Resumable (modify g : Wire Unit) := by
  refine ⟨.adjust hmoved, fun l => ?_⟩
  show Foretells (.ok () (g l)) (.ok () (g l.free))
  rw [hsame]
  exact .ok () (g l)

theorem record {e : LinkEvent} (he : e.isTransfer = true) : Resumable (Link.record e) :=
  adjust (fun l => .record l he) fun _ => rfl

/-! ## Transfers -/

theorem pause : Resumable Link.pause := by
  refine ⟨.pause, fun l => ?_⟩
  cases hinterruption : l.interruption with
  | none => exact .of_free .pause hinterruption
  | some interruption =>
      have hfree : Link.pause l.free = .ok () l.free := pause_of_none rfl
      rw [hfree, Link.pause, Link.wait, hinterruption]
      obtain ⟨_ | transfers, written⟩ := interruption
      · exact .waiting (List.prefix_refl _)
      · exact .ok () _

theorem giveUp : Resumable
    (MonadState.get >>= fun l => throwThe Halt l.ending.halt : Wire α) := by
  refine ⟨.giveUp fun _ => trivial, fun l => ?_⟩
  show Foretells (.error l.ending.halt l) (.error l.ending.halt l.free)
  cases l.ending with
  | closed => exact .fault _ l
  | broken text => exact .fault _ l
  | silent => exact .waiting (List.prefix_refl _)

theorem readClosed : ReadClosed fun x => Resumable x where
  pure := pure
  bind := bind
  pause := pause
  look hf := look (fun _ => rfl) fun l => hf l.arrived
  leave _ := adjust (fun _ => .of_log_eq rfl rfl rfl id) fun _ => rfl
  received _ := record rfl
  giveUp := giveUp
  misannounced _ := throw _

theorem readFrame : Resumable Link.readFrame :=
  readClosed.readFrame

theorem put (octets : Octets) : Resumable (Link.put octets) := by
  refine ⟨.put octets, fun l => ?_⟩
  unfold Link.put
  cases hroom : l.room with
  | none =>
      rw [show l.free.room = none from hroom]
      exact .ok () _
  | some room =>
      rw [show l.free.room = some room from hroom]
      exact .ok () _

theorem pushOut : Resumable Link.pushOut := by
  refine ⟨.pushOut, fun l => ?_⟩
  cases hfault : l.flushFault with
  | none =>
      have hpushed (l : Link) (h : l.flushFault = none) : Link.pushOut l = .ok () l := by
        rw [Link.pushOut, h]
      rw [hpushed l hfault, hpushed l.free hfault]
      exact .ok () l
  | some fault =>
      unfold Link.pushOut
      rw [show l.free.flushFault = l.flushFault from rfl, hfault]
      rw [show l.free.flushes = l.flushes from rfl]
      cases l.flushes with
      | zero => exact .fault fault l
      | succ n => exact .ok () _

/-- A write of which the signal has let a part go out has put out a beginning of the whole. -/
theorem write (octets : Octets) : Resumable (Link.write octets) := by
  let rest : Wire Unit := MonadState.get >>= fun l =>
    Link.put octets >>= fun _ =>
      Link.refuse (if l.room.any (· < octets.length) then some (.io l.writeCause) else none)
  have hrest : Resumable rest :=
    look (fun _ => rfl) fun l => (put octets).bind fun _ => refuse _
  have hsteady : Steady (Link.write octets) := .write (fun _ => trivial) octets
  have hwaited (l l' : Link)
      (h : Link.wait (fun written => Link.put (octets.take written)) l = .ok () l') :
      Link.write octets l = rest l' := bind_of_ok h
  refine ⟨hsteady, fun l => ?_⟩
  have hfree : Link.write octets l.free = rest l.free := hwaited l.free l.free rfl
  cases hinterruption : l.interruption with
  | none => exact .of_free hsteady hinterruption
  | some interruption =>
      obtain ⟨_ | transfers, written⟩ := interruption
      · have hcut : Link.write octets l = .error .waiting (l.written (octets.take written)) := by
          refine bind_of_error ?_
          rw [Link.wait, hinterruption]
          exact bind_of_ok (put_eq _ l)
        have hbeginning : (l.written (octets.take written)).sent <+:
            (l.free.written octets).sent := by
          rw [sent_written, sent_written, sent_free, List.prefix_append_right_inj]
          show l.room.elim (octets.take written) (octets.take written).take <+:
            l.room.elim octets octets.take
          cases l.room with
          | none => exact List.take_prefix written octets
          | some room =>
              show (octets.take written).take room <+: octets.take room
              rw [List.take_take, Nat.min_comm, ← List.take_take]
              exact List.take_prefix written _
        have hgrows : (l.free.written octets).sent <+: (linkAfter (rest l.free)).sent := by
          have hput : rest l.free = Link.refuse _ (l.free.written octets) :=
            bind_of_ok (put_eq octets l.free)
          rw [hput]
          exact Steady.sent_mono (refuse _).steady _
        rw [hcut, hfree]
        exact .waiting (hbeginning.trans hgrows)
      · have hheard : Link.write octets l =
            rest { l with interruption := some ⟨transfers, written⟩ } := by
          refine hwaited l _ ?_
          rw [Link.wait, hinterruption]
        rw [hheard, hfree]
        exact hrest.foretells _

theorem transmit (octets : Octets) : Resumable (Link.transmit octets) :=
  (write octets).bind fun _ => pause.bind fun _ => pushOut

end Resumable

end Link

open Link in
/-- A conversation that the stop signal cuts short is the beginning of the whole one. -/
theorem converse_resumable {S R : Type} (rule : S → Frame → Turn S R) (state : S) :
    Resumable (converse rule state) := by
  have hsteady (state : S) : Steady (converse rule state) :=
    converse_orderly (fun _ => trivial) (fun _ => trivial)
      (⟨fun _ _ _ _ _ => trivial, fun _ _ _ _ _ _ => trivial, fun _ _ _ _ _ => trivial⟩ :
        FailsWith (fun _ => True) (fun _ => True) rule) trivial
  have hproceed (turn : Turn S R) : Steady (proceed rule turn) := by
    cases turn with
    | wait next => exact hsteady next
    | send reply next => exact (Resumable.transmit _).steady.bind fun _ => hsteady next
    | done result => exact .pure result
    | fail fault => exact .throw trivial
  refine ⟨hsteady state, fun l => ?_⟩
  induction hn : l.unread.length using Nat.strongRecOn generalizing state l with
  | _ n ih =>
      subst hn
      rw [converse_eq, converse_eq]
      refine (Resumable.readFrame.foretells l).bind (fun f l₁ hread => ?_) fun f => hproceed _
      have hfewer := unread_readFrame_lt hread
      cases rule state f with
      | wait next => exact ih _ hfewer next l₁ rfl
      | done result => exact .ok result l₁
      | fail fault => exact .fault fault l₁
      | send reply next =>
          refine ((Resumable.transmit reply.encode).foretells l₁).bind (fun _ l₂ hwrite => ?_)
            fun _ => hsteady next
          have hkept := KeepsUnread.transmit _ hwrite
          exact ih _ (hkept ▸ hfewer) next l₂ rfl

end PgFrontend
