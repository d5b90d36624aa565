import PgFrontend.Proofs.Wire.Numbers
import PgFrontend.Wire.Conversation
/-!
# Transfers that succeed

The converse of what `Link.Unread` says: if the unread octets begin with what is asked for, a read
returns it, in whatever pieces it arrived; and a write for which there is room goes out whole.  The
relations `Took` and `Wrote` say what such transfers do to a link, and a conversation is followed by
composing them.
-/

namespace PgFrontend.Link

open Octets

theorem bind_of_ok {α β : Type} {x : Wire α} {f : α → Wire β} {l l₁ : Link} {a : α}
    (h : x l = .ok a l₁) : (x >>= f) l = f a l₁ := by
  show EStateM.bind x f l = _
  rw [EStateM.bind, h]

theorem bind_of_error {α β : Type} {x : Wire α} {f : α → Wire β} {l l₁ : Link} {halt : Halt}
    (h : x l = .error halt l₁) : (x >>= f) l = .error halt l₁ := by
  show EStateM.bind x f l = _
  rw [EStateM.bind, h]

theorem bind_eq_error {α β : Type} {x : Wire α} {f : α → Wire β} {l l' : Link} {halt : Halt}
    (h : (x >>= f) l = .error halt l') :
    x l = .error halt l' ∨ ∃ a l₁, x l = .ok a l₁ ∧ f a l₁ = .error halt l' := by
  cases hrun : x l with
  | ok a l₁ =>
      rw [bind_of_ok hrun] at h
      exact .inr ⟨a, l₁, rfl, h⟩
  | error halt l₁ =>
      rw [bind_of_error hrun] at h
      cases h
      exact .inl rfl

/-! ## What an event adds to a transcript -/

theorem sent_noted (l : Link) (e : LinkEvent) :
    (l.log ++ [e]).flatMap LinkEvent.sentOctets = l.sent ++ e.sentOctets := by
  rw [List.flatMap_append, List.flatMap_singleton]
  rfl

theorem consumed_noted (l : Link) (e : LinkEvent) :
    (l.log ++ [e]).flatMap LinkEvent.receivedOctets = l.consumed ++ e.receivedOctets := by
  rw [List.flatMap_append, List.flatMap_singleton]
  rfl

/-! ## Reads -/

/-- From one link to another, only reads have been made, and they took these octets. -/
structure Took (s : Octets) (l l' : Link) : Prop where
  unread_eq : l.unread = s ++ l'.unread
  consumed_eq : l'.consumed = l.consumed ++ s
  sent_eq : l'.sent = l.sent
  rest_eq : l' = { l with arrived := l'.arrived, log := l'.log }

namespace Took

variable {s t : Octets} {l l₁ l₂ : Link}

theorem refl (l : Link) : Took [] l l :=
  ⟨rfl, (List.append_nil _).symm, rfl, rfl⟩

theorem trans (h : Took s l l₁) (h' : Took t l₁ l₂) : Took (s ++ t) l l₂ := by
  constructor
  · rw [h.unread_eq, h'.unread_eq, List.append_assoc]
  · rw [h'.consumed_eq, h.consumed_eq, List.append_assoc]
  · rw [h'.sent_eq, h.sent_eq]
  · rw [h'.rest_eq, h.rest_eq]

theorem unread_of_append {r : Octets} (h : Took s l l₁) (hunread : l.unread = s ++ r) :
    l₁.unread = r :=
  List.append_cancel_left (h.unread_eq.symm.trans hunread)

theorem interruption_eq (h : Took s l l₁) : l₁.interruption = l.interruption := by
  rw [h.rest_eq]

theorem room_eq (h : Took s l l₁) : l₁.room = l.room := by
  rw [h.rest_eq]

theorem flushFault_eq (h : Took s l l₁) : l₁.flushFault = l.flushFault := by
  rw [h.rest_eq]

theorem ending_eq (h : Took s l l₁) : l₁.ending = l.ending := by
  rw [h.rest_eq]

end Took

theorem pause_of_none {l : Link} (h : l.interruption = none) : pause l = .ok () l := by
  rw [pause, wait, h]

theorem took_skip {l : Link} {pieces : List Octets} (h : l.arrived = [] :: pieces) :
    Took [] l { l with arrived := pieces } := by
  refine ⟨?_, (List.append_nil _).symm, rfl, rfl⟩
  rw [unread, h]
  rfl

theorem takeIn_took {l : Link} {piece : Octets} {pieces : List Octets}
    (h : l.arrived = piece :: pieces) (size : Nat) :
    ∃ l₁, takeIn (piece.take size) (piece.drop size) pieces l = .ok () l₁ ∧
      l₁.arrived = (if (piece.drop size).isEmpty then pieces else piece.drop size :: pieces) ∧
      Took (piece.take size) l l₁ := by
  refine ⟨_, rfl, rfl, ?_, ?_, ?_, rfl⟩
  · show l.arrived.flatten = piece.take size ++
      (if (piece.drop size).isEmpty then pieces else piece.drop size :: pieces).flatten
    rw [h, List.flatten_cons]
    by_cases hempty : (piece.drop size).isEmpty
    · have hle : piece.length ≤ size := List.drop_eq_nil_iff.mp (List.isEmpty_iff.mp hempty)
      rw [if_pos hempty, List.take_of_length_le hle]
    · rw [if_neg hempty, List.flatten_cons, ← List.append_assoc, List.take_append_drop]
  · exact consumed_noted l _
  · exact (sent_noted l _).trans (List.append_nil _)

theorem readPieces_took {s r : Octets} {l : Link} (pieces : List Octets)
    (hpieces : l.arrived = pieces) (hunread : l.unread = s ++ r) (hfree : l.interruption = none) :
    ∃ l', readPieces s.length pieces l = .ok s l' ∧ Took s l l' := by
  induction pieces generalizing s l with
  | nil =>
      have hnothing : s ++ r = [] := by
        rw [← hunread, unread, hpieces]
        rfl
      obtain ⟨rfl, -⟩ := List.append_eq_nil_iff.mp hnothing
      exact ⟨l, readPieces_zero [] l, .refl l⟩
  | cons piece pieces ih =>
      by_cases hs : s = []
      · subst hs
        exact ⟨l, readPieces_zero _ l, .refl l⟩
      have hsize : ¬s.length = 0 := by
        rwa [List.length_eq_zero_iff]
      rw [readPieces, if_neg hsize]
      by_cases hempty : piece = []
      · subst hempty
        have hskip := took_skip hpieces
        obtain ⟨l', hread, htook⟩ := ih rfl (hskip.unread_eq.symm.trans hunread) hfree
        exact ⟨l', hread, hskip.trans htook⟩
      rw [if_neg (by rwa [List.isEmpty_iff]), bind_of_ok (pause_of_none hfree)]
      obtain ⟨l₁, htaken, harrived, htook⟩ := takeIn_took hpieces s.length
      rw [bind_of_ok htaken]
      have hsplit : piece ++ pieces.flatten = s ++ r := by
        rw [← hunread, unread, hpieces, List.flatten_cons]
      -- The piece is used up and more is needed, or it is enough.
      rcases List.append_eq_append_iff.mp hsplit with ⟨more, rfl, -⟩ | ⟨left, rfl, -⟩
      · have hle : piece.length ≤ (piece ++ more).length := by
          rw [List.length_append]
          omega
        have hleft : (piece ++ more).length - piece.length = more.length := by
          rw [List.length_append]
          omega
        rw [List.drop_eq_nil_of_le hle, List.isEmpty_nil, if_pos rfl] at harrived
        rw [List.take_of_length_le hle] at htook ⊢
        have hunread₁ : l₁.unread = more ++ r :=
          htook.unread_of_append (by rw [hunread, List.append_assoc])
        obtain ⟨l', hread, htook'⟩ := ih harrived hunread₁ (htook.interruption_eq.trans hfree)
        rw [hleft, bind_of_ok hread]
        exact ⟨l', rfl, htook.trans htook'⟩
      · have hnone : s.length - (s ++ left).length = 0 := by
          rw [List.length_append]
          omega
        rw [List.take_left] at htook ⊢
        rw [hnone, bind_of_ok (readPieces_zero pieces l₁), List.append_nil]
        exact ⟨l₁, rfl, htook⟩

theorem readExactly_took {s r : Octets} {l : Link} (hunread : l.unread = s ++ r)
    (hfree : l.interruption = none) :
    ∃ l', readExactly s.length l = .ok s l' ∧ Took s l l' :=
  readPieces_took l.arrived rfl hunread hfree

end PgFrontend.Link

namespace PgFrontend

open Octets

def Frame.Fits (f : Frame) : Prop :=
  f.payload.length + 4 ≤ Frame.maxSize

instance : DecidablePred Frame.Fits :=
  fun f => inferInstanceAs (Decidable (f.payload.length + 4 ≤ Frame.maxSize))

theorem Payload.int32_bigEndian {n : Nat} (h : n ≤ Frame.maxSize) :
    (Payload.int32 (bigEndian 4 n)).toInt = n :=
  Payload.toInt_int32_bigEndian (Nat.le_trans h (by decide))

theorem Frame.payloadSize_header {f : Frame} (h : f.Fits) :
    Frame.payloadSize (f.tag :: bigEndian 4 (f.payload.length + 4)) = .ok f.payload.length := by
  have hlength := Payload.int32_bigEndian h
  unfold Frame.payloadSize
  dsimp only
  rw [List.drop_one, List.tail_cons, hlength, if_neg]
  · have : ((f.payload.length + 4 : Nat) : Int).toNat - 4 = f.payload.length := by omega
    rw [this]
  · unfold Frame.Fits at h
    omega

namespace Link

theorem readFrame_took {f : Frame} {r : Octets} {l : Link} (hfits : f.Fits)
    (hunread : l.unread = f.encode ++ r) (hfree : l.interruption = none) :
    ∃ l', readFrame l = .ok f l' ∧ Took f.encode l l' := by
  have hheader : l.unread = (f.tag :: bigEndian 4 (f.payload.length + 4)) ++ (f.payload ++ r) := by
    rw [hunread, Frame.encode, List.append_assoc]
  obtain ⟨l₁, hread₁, htook₁⟩ := readExactly_took hheader hfree
  obtain ⟨l₂, hread₂, htook₂⟩ :=
    readExactly_took (htook₁.unread_of_append hheader) (htook₁.interruption_eq.trans hfree)
  have hsize : (f.tag :: bigEndian 4 (f.payload.length + 4)).length = Frame.headerSize := by
    rw [List.length_cons, length_bigEndian]
    rfl
  rw [hsize] at hread₁
  refine ⟨l₂, ?_, htook₁.trans htook₂⟩
  have hchecked : check (.ok f.payload.length) l₁ = .ok f.payload.length l₁ := rfl
  rw [readFrame, bind_of_ok hread₁, Frame.payloadSize_header hfits, bind_of_ok hchecked,
    bind_of_ok hread₂]
  rfl

/-! ## Writes -/

/-- Transfers over a link succeed: no stop signal comes, and so many more octets can be written. -/
structure Open (l : Link) (size : Nat) : Prop where
  interruption_eq : l.interruption = none
  flushFault_eq : l.flushFault = none
  le_room : ∀ room, l.room = some room → size ≤ room

theorem Open.took {s : Octets} {l l' : Link} {size : Nat} (h : l.Open size) (htook : Took s l l') :
    l'.Open size := by
  constructor
  · rw [htook.interruption_eq, h.interruption_eq]
  · rw [htook.flushFault_eq, h.flushFault_eq]
  · rw [htook.room_eq]
    exact h.le_room

theorem Open.of_unlimited {l : Link} (hfree : l.interruption = none)
    (hflush : l.flushFault = none) (hroom : l.room = none) (size : Nat) : l.Open size := by
  refine ⟨hfree, hflush, fun room hsome => ?_⟩
  cases hroom.symm.trans hsome

structure Wrote (s : Octets) (l l' : Link) : Prop where
  unread_eq : l'.unread = l.unread
  consumed_eq : l'.consumed = l.consumed
  sent_eq : l'.sent = l.sent ++ s

/-- The link after a write, of which as much has gone out as there was room for. -/
def written (octets : Octets) (l : Link) : Link :=
  { l with
    room := l.room.map (· - octets.length)
    log := l.log ++ [.sent (l.room.elim octets octets.take)] }

theorem put_eq (octets : Octets) (l : Link) : put octets l = .ok () (l.written octets) := by
  obtain ⟨_, _, room, _⟩ := l
  cases room <;> rfl

theorem write_eq (octets : Octets) {l : Link} (hfree : l.interruption = none) :
    write octets l =
      refuse (if l.room.any (· < octets.length) then some (.io l.writeCause) else none)
        (l.written octets) := by
  have hwaited (before : Nat → Wire Unit) : wait before l = .ok () l := by
    rw [wait, hfree]
  have hget : (get : Wire Link) l = .ok l l := rfl
  rw [write, bind_of_ok (hwaited _), bind_of_ok hget, bind_of_ok (put_eq octets l)]

theorem sent_written (octets : Octets) (l : Link) :
    (l.written octets).sent = l.sent ++ l.room.elim octets octets.take :=
  sent_noted l _

theorem consumed_written (octets : Octets) (l : Link) :
    (l.written octets).consumed = l.consumed :=
  (consumed_noted l _).trans (List.append_nil _)

/-- Where there is room for all of a write, all of it goes out. -/
theorem sent_written_whole {octets : Octets} {l : Link}
    (h : l.room.any (· < octets.length) = false) : (l.written octets).sent = l.sent ++ octets := by
  rw [sent_written]
  cases hroom : l.room with
  | none => rfl
  | some room =>
      rw [hroom, Option.any_some, decide_eq_false_iff_not, Nat.not_lt] at h
      rw [Option.elim_some, List.take_of_length_le h]

theorem Open.written {octets : Octets} {l : Link} {size : Nat}
    (h : l.Open (octets.length + size)) : (l.written octets).Open size := by
  refine ⟨h.interruption_eq, h.flushFault_eq, fun left hleft => ?_⟩
  obtain ⟨room, hroom, rfl⟩ := Option.map_eq_some_iff.mp hleft
  have hle := h.le_room room hroom
  omega

theorem transmit_wrote {l : Link} {size : Nat} (octets : Octets)
    (h : l.Open (octets.length + size)) :
    ∃ l', transmit octets l = .ok () l' ∧ Wrote octets l l' ∧ l'.Open size := by
  have hroom : l.room.any (· < octets.length) = false := by
    cases hroom : l.room with
    | none => rfl
    | some room =>
        have hle := h.le_room room hroom
        rw [Option.any_some, decide_eq_false_iff_not]
        omega
  have hwritten : write octets l = .ok () (l.written octets) := by
    rw [write_eq octets h.interruption_eq, hroom]
    rfl
  have hopen := h.written
  have hflushed : flush (l.written octets) = .ok () (l.written octets) := by
    rw [flush, bind_of_ok (pause_of_none hopen.interruption_eq), pushOut, hopen.flushFault_eq]
  refine ⟨l.written octets, ?_, ⟨rfl, consumed_written octets l, sent_written_whole hroom⟩, hopen⟩
  rw [transmit, bind_of_ok hwritten, hflushed]

end Link

/-! ## Conversations -/

theorem converse_of_read {S R : Type} {f : Frame} {l l' : Link} (rule : S → Frame → Turn S R)
    (state : S) (hread : Link.readFrame l = .ok f l') :
    converse rule state l = match rule state f with
      | .wait next => converse rule next l'
      | .send reply next =>
          match Link.transmit reply.encode l' with
          | .error halt l₂ => .error halt l₂
          | .ok _ l₂ => converse rule next l₂
      | .done result => .ok result l'
      | .fail fault => .error (.fault fault) l' := by
  rw [converse]
  split
  next halt l₁ herror =>
    rw [hread] at herror
    cases herror
  next frame l₁ hok =>
    rw [hread] at hok
    cases hok
    cases rule state f with
    | wait next => rfl
    | done result => rfl
    | fail fault => rfl
    | send reply next =>
        dsimp only
        split
        next herror => rw [herror]
        next hok => rw [hok]

end PgFrontend
