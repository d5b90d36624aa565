import PgFrontend.Wire.Link
/-!
# What reading is made of

A frame is read in a few kinds of steps.  A property that each kind of step has, and that is kept
when such things are done one after another, is one of reading a frame: `ReadClosed.readFrame` is
the only place that goes through the definitions of the reads for that.
-/

namespace PgFrontend.Link

open Octets

/-- Whether a property is one of all steps of a read, and kept when they are done one after
another. -/
structure ReadClosed (P : ∀ {α : Type}, Wire α → Prop) : Prop where
  pure : ∀ {α : Type} (a : α), P (Pure.pure a : Wire α)
  bind : ∀ {α β : Type} {x : Wire α} {f : α → Wire β}, P x → (∀ a, P (f a)) → P (x >>= f)
  pause : P Link.pause
  /-- Looking at what has arrived. -/
  look : ∀ {α : Type} {f : List Octets → Wire α}, (∀ pieces, P (f pieces)) →
    P (MonadState.get >>= fun l : Link => f l.arrived)
  /-- Leaving only some of it. -/
  leave : ∀ pieces : List Octets,
    P (modify fun l : Link => { l with arrived := pieces } : Wire Unit)
  received : ∀ octets, P (record (.received octets))
  /-- The end of a read that finds nothing any more. -/
  giveUp : P (MonadState.get >>= fun l : Link => throwThe Halt l.ending.halt : Wire Octets)
  misannounced : ∀ size, P (check (.error (.protocol (.frameLength size))) : Wire Nat)

namespace ReadClosed

variable {P : ∀ {α : Type}, Wire α → Prop}

theorem takeIn (h : ReadClosed P) (octets rest : Octets) (pieces : List Octets) :
    P (Link.takeIn octets rest pieces) :=
  h.bind (h.leave _) fun _ => h.received octets

theorem readPieces (h : ReadClosed P) (size : Nat) (pieces : List Octets) :
    P (Link.readPieces size pieces) := by
  induction pieces generalizing size with
  | nil =>
      unfold Link.readPieces
      split
      · exact h.pure []
      · exact h.bind h.pause fun _ => h.giveUp
  | cons piece pieces ih =>
      unfold Link.readPieces
      split
      · exact h.pure []
      split
      · exact h.bind (h.leave pieces) fun _ => ih size
      · refine h.bind h.pause fun _ => h.bind (h.takeIn _ _ _) fun _ => ?_
        exact h.bind (ih _) fun _ => h.pure _

theorem readExactly (h : ReadClosed P) (size : Nat) : P (Link.readExactly size) :=
  h.look fun pieces => h.readPieces size pieces

theorem readFrame (h : ReadClosed P) : P Link.readFrame := by
  refine h.bind (h.readExactly _) fun header => h.bind ?_ fun size => ?_
  · unfold Frame.payloadSize
    dsimp only
    split
    · exact h.misannounced _
    · exact h.pure _
  · exact h.bind (h.readExactly size) fun _ => h.pure _

end ReadClosed

end PgFrontend.Link
