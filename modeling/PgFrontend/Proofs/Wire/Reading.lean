import PgFrontend.Proofs.Wire.Decoding
/-!
# Reading a stream to its end

Every run of octets is in one way only a series of frames and something that does not begin with a
frame.  `readFrames_exact` says that reading finds just these frames, in whatever pieces the octets
arrive, takes no octet of a frame before it is asked for that frame, and fails at what follows them.
-/

namespace PgFrontend

open Octets

namespace Frame

/-- Whether a run of octets does not begin with a whole frame of a size that frames have. -/
def Torn (s : Octets) : Prop :=
  ∀ (f : Frame) (r : Octets), s = f.encode ++ r → ¬f.Fits

theorem torn_iff (s : Octets) : Torn s ↔ ∃ fault, decode s = .error fault := by
  constructor
  · intro htorn
    cases hdecode : decode s with
    | error fault => exact ⟨fault, rfl⟩
    | ok found =>
        obtain ⟨f, r⟩ := found
        obtain ⟨hstream, hfits⟩ := decode_eq_ok hdecode
        exact absurd hfits (htorn f r hstream)
  · rintro ⟨fault, herror⟩ f r rfl hfits
    cases herror.symm.trans (decode_encode hfits r)

theorem Torn.decode_eq {s : Octets} (h : Torn s) : decode s = .error (tornFault s) := by
  obtain ⟨fault, herror⟩ := (torn_iff s).mp h
  rw [herror, eq_tornFault herror]

/-- A stream is a series of frames, each of a size that frames have, and a rest that does not begin
with another one. -/
structure Divided (s : Octets) (frames : List Frame) (rest : Octets) : Prop where
  stream_eq : s = frames.flatMap encode ++ rest
  fits : ∀ f ∈ frames, f.Fits
  torn : Torn rest

namespace Divided

variable {s rest : Octets} {f : Frame} {frames : List Frame}

theorem decodeAll_eq (h : Divided s frames rest) : decodeAll s = (frames, tornFault rest) := by
  rw [h.stream_eq]
  exact decodeAll_flatMap h.fits h.torn.decode_eq

theorem unique {frames' : List Frame} {rest' : Octets} (h : Divided s frames rest)
    (h' : Divided s frames' rest') : frames' = frames ∧ rest' = rest := by
  have hframes : frames' = frames :=
    congrArg Prod.fst (h'.decodeAll_eq.symm.trans h.decodeAll_eq)
  subst hframes
  exact ⟨rfl, List.append_cancel_left (h'.stream_eq.symm.trans h.stream_eq)⟩

theorem tail {r : Octets} (h : Divided s (f :: frames) rest) (hs : s = f.encode ++ r) :
    Divided r frames rest := by
  refine ⟨?_, (List.forall_mem_cons.mp h.fits).2, h.torn⟩
  have hstream := h.stream_eq
  rw [hs, List.flatMap_cons, List.append_assoc] at hstream
  exact List.append_cancel_left hstream

end Divided

theorem exists_divided (s : Octets) : ∃ frames rest, Divided s frames rest := by
  obtain ⟨hfits, rest, hstream, htorn⟩ := decodeAll_eq (s := s) rfl
  exact ⟨_, rest, hstream, hfits, (torn_iff rest).mpr ⟨_, htorn⟩⟩

end Frame

namespace Link

open PgFrontend.Frame (Divided)

variable {l : Link} {frames : List Frame} {rest : Octets}

/-- Reads so many frames. -/
def readMany : Nat → Wire (List Frame)
  | 0 => pure []
  | n + 1 => do
      let f ← readFrame
      return f :: (← readMany n)

theorem readFrames_of_error {halt : Halt} {l' : Link} (h : readFrame l = .error halt l') :
    l.readFrames = ([], halt, l') := by
  rw [readFrames]
  split
  next herror =>
    cases h.symm.trans herror
    rfl
  next hok => cases h.symm.trans hok

theorem readFrames_of_ok {f : Frame} {l' : Link} (h : readFrame l = .ok f l') :
    l.readFrames = (f :: l'.readFrames.1, l'.readFrames.2) := by
  rw [readFrames]
  split
  next herror => cases h.symm.trans herror
  next hok =>
    cases h.symm.trans hok
    rfl

/-- The first frame of a stream is read, and the others are still there. -/
theorem readFrame_divided {f : Frame} (h : Divided l.unread (f :: frames) rest)
    (hfree : l.interruption = none) :
    ∃ l', readFrame l = .ok f l' ∧ Took f.encode l l' ∧ Divided l'.unread frames rest := by
  have hstream := h.stream_eq
  rw [List.flatMap_cons, List.append_assoc] at hstream
  obtain ⟨l', hread, htook⟩ := readFrame_took (List.forall_mem_cons.mp h.fits).1 hstream hfree
  exact ⟨l', hread, htook, h.tail htook.unread_eq⟩

theorem readFrames_divided (h : Divided l.unread frames rest) (hclosed : l.ending = .closed)
    (hfree : l.interruption = none) :
    ∃ l', l.readFrames = (frames, .fault (Frame.tornFault rest), l') ∧
      Took (frames.flatMap Frame.encode ++ Frame.tornOff rest) l l' := by
  induction frames generalizing l with
  | nil =>
      have hrest : l.unread = rest := h.stream_eq
      obtain ⟨l', hread, htook⟩ := readFrame_tornOff hfree (hrest ▸ h.torn.decode_eq)
      rw [hrest] at hread htook
      refine ⟨l', ?_, htook⟩
      rw [readFrames_of_error hread, hclosed]
      unfold Frame.tornFault
      split <;> rfl
  | cons f frames ih =>
      obtain ⟨l₁, hread, htook, hdivided⟩ := readFrame_divided h hfree
      obtain ⟨l', hreads, htook'⟩ :=
        ih hdivided (htook.ending_eq.trans hclosed) (htook.interruption_eq.trans hfree)
      refine ⟨l', by rw [readFrames_of_ok hread, hreads], ?_⟩
      rw [List.flatMap_cons, List.append_assoc]
      exact htook.trans htook'

theorem readMany_divided {n : Nat} (h : Divided l.unread frames rest) (hn : n ≤ frames.length)
    (hfree : l.interruption = none) :
    ∃ l', readMany n l = .ok (frames.take n) l' ∧
      Took ((frames.take n).flatMap Frame.encode) l l' := by
  induction n generalizing l frames with
  | zero => exact ⟨l, rfl, .refl l⟩
  | succ n ih =>
      obtain _ | ⟨f, frames⟩ := frames
      · cases hn
      obtain ⟨l₁, hread, htook, hdivided⟩ := readFrame_divided h hfree
      obtain ⟨l', hreads, htook'⟩ :=
        ih hdivided (Nat.le_of_succ_le_succ hn) (htook.interruption_eq.trans hfree)
      refine ⟨l', ?_, ?_⟩
      · rw [readMany, bind_of_ok hread, bind_of_ok hreads]
        rfl
      · rw [List.take_succ_cons, List.flatMap_cons]
        exact htook.trans htook'

/-- **Reading frames is exact.**  Every finite stream is in one way only a series of frames, each of
which announces a length from 4 to the largest one, and a rest that does not begin with such a
frame.  However it is cut into pieces, reading frames until that fails finds this series over any
closed link: it fails for the length that the rest's header announces, with that header taken off
the stream, if there is a whole header and the length is out of bounds; and otherwise because the
stream ends early, with all of it taken.  After any number of frames, exactly those have been taken
off the stream. -/
theorem readFrames_exact (s : Octets) :
    ∃ frames rest, Divided s frames rest ∧
      (∀ frames' rest', Divided s frames' rest' → frames' = frames ∧ rest' = rest) ∧
      ∀ l : Link, l.unread = s → l.ending = .closed → l.interruption = none →
        (∃ l', l.readFrames = (frames, .fault (Frame.tornFault rest), l') ∧
          Took (frames.flatMap Frame.encode ++ Frame.tornOff rest) l l') ∧
        ∀ n ≤ frames.length, ∃ l', readMany n l = .ok (frames.take n) l' ∧
          Took ((frames.take n).flatMap Frame.encode) l l' := by
  obtain ⟨frames, rest, hdivided⟩ := Frame.exists_divided s
  refine ⟨frames, rest, hdivided, fun frames' rest' => hdivided.unique, ?_⟩
  rintro l rfl hclosed hfree
  exact ⟨readFrames_divided hdivided hclosed hfree,
    fun n hn => readMany_divided hdivided hn hfree⟩

/-- Two frames in three pieces, and a header that announces a negative length. -/
theorem readFrames_exact_negative :
    let l : Link :=
      { arrived := [[90, 0], [0, 0, 5, 73, 75, 0, 0, 0], [4, 90, 255, 255, 255, 255, 1]] }
    ∃ l', l.readFrames = ([⟨90, [73]⟩, ⟨75, []⟩], .fault (.protocol (.frameLength (-1))), l') ∧
      l'.unread = [1] := by
  intro l
  obtain ⟨frames, rest, -, hunique, hreads⟩ := readFrames_exact l.unread
  have hdivided : Divided l.unread [⟨90, [73]⟩, ⟨75, []⟩] [90, 255, 255, 255, 255, 1] :=
    ⟨rfl, by decide, (Frame.torn_iff _).mpr ⟨_, rfl⟩⟩
  obtain ⟨rfl, rfl⟩ := hunique _ _ hdivided
  obtain ⟨⟨l', hread, htook⟩, -⟩ := hreads l rfl rfl rfl
  exact ⟨l', hread, htook.unread_of_append rfl⟩

end Link

end PgFrontend
