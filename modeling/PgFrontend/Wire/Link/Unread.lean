import PgFrontend.Wire.Link
/-!
# What transfers leave unread

A read takes exactly what it returns off the front of the unread octets, whatever the pieces in
which they arrived, and no other transfer touches them. So each frame that is read leaves fewer.
-/

namespace PgFrontend.Link

open Octets

theorem bind_eq_ok {α β : Type} {x : Wire α} {f : α → Wire β} {l l' : Link} {b : β}
    (h : (x >>= f) l = .ok b l') : ∃ a l₁, x l = .ok a l₁ ∧ f a l₁ = .ok b l' := by
  change EStateM.bind x f l = _ at h
  unfold EStateM.bind at h
  split at h
  · exact ⟨_, _, ‹_›, h⟩
  · cases h

theorem check_eq_ok {α : Type} {r : Except Fault α} {l l' : Link} {a : α}
    (h : check r l = .ok a l') : r = .ok a ∧ l' = l := by
  cases r <;> cases h
  exact ⟨rfl, rfl⟩

/-! ## Reads -/

theorem readPieces_zero (pieces : List Octets) (l : Link) : readPieces 0 pieces l = .ok [] l := by
  cases pieces <;> simp [readPieces, pure, EStateM.pure]

theorem unread_readPieces {size : Nat} {l l' : Link} {octets : Octets} (pieces : List Octets)
    (h : l.arrived = pieces) (run : readPieces size pieces l = .ok octets l') :
    l.unread = octets ++ l'.unread ∧ octets.length = size := by
  induction pieces generalizing size l octets with
  | nil =>
      unfold readPieces at run
      split at run
      · cases run; simp_all
      · obtain ⟨_, _, _, run⟩ := bind_eq_ok run
        cases run
  | cons piece pieces ih =>
      unfold readPieces at run
      split at run
      · cases run; simp_all
      · split at run
        next hs he =>
          obtain ⟨_, _, skipped, run⟩ := bind_eq_ok run
          cases skipped
          have := ih rfl run
          simp_all [unread]
        next hs he =>
          obtain ⟨_, _, _, run⟩ := bind_eq_ok run
          obtain ⟨_, _, taken, run⟩ := bind_eq_ok run
          obtain ⟨more, _, rest, run⟩ := bind_eq_ok run
          cases run
          cases taken
          by_cases hlen : piece.length ≤ size
          · have hd : piece.drop size = [] := List.drop_eq_nil_of_le hlen
            obtain ⟨hu, hl⟩ := ih (by simp [hd]) rest
            simp only [unread, hd, List.isEmpty_nil, if_true] at hu ⊢
            rw [h, List.flatten_cons, hu, List.take_of_length_le hlen]
            exact ⟨by simp, by simp [hl]; omega⟩
          · have hz : size - piece.length = 0 := by omega
            rw [hz, readPieces_zero] at rest
            cases rest
            have hd : (piece.drop size).isEmpty = false := by
              simp; omega
            simp only [unread, hd, h]
            exact ⟨by simp [← List.append_assoc], by simp; omega⟩

theorem unread_readExactly {size : Nat} {l l' : Link} {octets : Octets}
    (run : readExactly size l = .ok octets l') :
    l.unread = octets ++ l'.unread ∧ octets.length = size :=
  unread_readPieces l.arrived rfl run

theorem unread_readFrame_lt {l l' : Link} {f : Frame} (run : readFrame l = .ok f l') :
    l'.unread.length < l.unread.length := by
  obtain ⟨header, _, first, run⟩ := bind_eq_ok run
  obtain ⟨_, _, checked, run⟩ := bind_eq_ok run
  obtain ⟨_, _, second, run⟩ := bind_eq_ok run
  cases run
  obtain ⟨-, rfl⟩ := check_eq_ok checked
  obtain ⟨hu, hl⟩ := unread_readExactly first
  obtain ⟨hv, -⟩ := unread_readExactly second
  rw [hu, hv]
  simp [hl, Frame.headerSize]
  omega

/-! ## Everything else -/

/-- Whether something leaves the unread octets alone when it succeeds. -/
def KeepsUnread {α : Type} (x : Wire α) : Prop :=
  ∀ ⦃l l' : Link⦄ ⦃a : α⦄, x l = .ok a l' → l'.unread = l.unread

namespace KeepsUnread

theorem bind {α β : Type} {x : Wire α} {f : α → Wire β} (hx : KeepsUnread x)
    (hf : ∀ a, KeepsUnread (f a)) : KeepsUnread (x >>= f) := by
  intro l l' b run
  obtain ⟨a, l₁, first, second⟩ := bind_eq_ok run
  rw [hf a second, hx first]

theorem get : KeepsUnread (MonadState.get : Wire Link) := by
  intro l l' a run
  cases run
  rfl

theorem refuse (fault : Option Fault) : KeepsUnread (Link.refuse fault) := by
  intro l l' a run
  cases fault <;> cases run
  rfl

theorem wait (before : Nat → Wire Unit) : KeepsUnread (Link.wait before) := by
  intro l l' a run
  unfold Link.wait at run
  split at run
  · cases run; rfl
  · obtain ⟨_, _, _, run⟩ := bind_eq_ok run
    cases run
  · cases run; rfl

theorem put (octets : Octets) : KeepsUnread (Link.put octets) := by
  intro l l' a run
  unfold Link.put at run
  split at run <;> cases run <;> rfl

theorem pushOut : KeepsUnread Link.pushOut := by
  intro l l' a run
  unfold Link.pushOut at run
  split at run <;> cases run <;> rfl

theorem transmit (octets : Octets) : KeepsUnread (Link.transmit octets) :=
  ((wait _).bind fun _ => get.bind fun _ => (put octets).bind fun _ => refuse _).bind
    fun _ => (wait _).bind fun _ => pushOut

end KeepsUnread

end PgFrontend.Link
