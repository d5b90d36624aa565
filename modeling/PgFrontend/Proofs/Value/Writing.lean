import PgFrontend.Proofs.Fault
import PgFrontend.Proofs.Octets.Chunked
import PgFrontend.Proofs.Octets.Hex
import PgFrontend.Value.Bytea
/-!
# Writing binary literals

The writing of a literal goes on in steps, and a step ends where its first chunk does or where the
scratch space is full.  In a sound buffer a first chunk shows octets as long as there are any, so each
step takes some of them and none goes wrong: `Ready` is what a step needs and keeps.  `Ends` is a
writing as a series of steps that comes to an end, and `finish` finds it if there is one.
-/

namespace PgFrontend.Bytea

theorem window_eq_ok_iff {size : Nat} {s t : Octets} :
    window size s = .ok t ↔ size ≤ s.length ∧ s.take size = t := by
  unfold window
  by_cases hsize : size ≤ s.length <;> simp [hsize]

theorem fill_eq_ok_iff {room octets digits : Octets} :
    fill room octets = .ok digits ↔
      room.length = 2 * octets.length ∧ Hex.encode octets = digits := by
  unfold fill
  by_cases hlength : room.length = 2 * octets.length <;> simp [hlength]

namespace Writing

/-- How many octets the next step writes. -/
def stride (w : Writing) : Nat :=
  min w.rest.first.length stepSize

/-- The writing after so many more octets. -/
def after (w : Writing) (size : Nat) : Writing where
  rest := w.rest.skip size
  scratch := Hex.encode (w.rest.toOctets.take size) ++ w.scratch.drop (2 * size)
  written := w.written ++ Hex.encode (w.rest.toOctets.take size)

/-- What a step relies on. -/
structure Ready (w : Writing) : Prop where
  sound : w.rest.Sound
  scratch_eq : w.scratch.length = 2 * stepSize

variable {w : Writing} {literal : Octets}

theorem ready_begin {b : ChunkedBuffer} (h : b.Sound) : Ready { rest := b } :=
  ⟨h, List.length_replicate⟩

theorem Ready.stride_le (h : w.Ready) : w.stride ≤ w.rest.remaining :=
  Nat.le_trans (Nat.min_le_left ..) h.sound.first_le

theorem Ready.stride_pos (h : w.Ready) (hleft : w.rest.remaining ≠ 0) : 0 < w.stride :=
  Nat.lt_min.mpr ⟨h.sound.first_pos (Nat.pos_of_ne_zero hleft), by decide⟩

theorem Ready.step_eq (h : w.Ready) : w.step = .ok (w.after w.stride) := by
  have hshown : w.stride ≤ w.rest.first.length := Nat.min_le_left ..
  have hroom : 2 * w.stride ≤ w.scratch.length := by
    rw [h.scratch_eq]
    exact Nat.mul_le_mul_left 2 (Nat.min_le_right ..)
  have hwindow := window_eq_ok_iff.mpr ⟨hroom, rfl⟩
  have hoctets := window_eq_ok_iff.mpr ⟨hshown, ChunkedBuffer.take_first w.rest hshown⟩
  have hfill : fill (w.scratch.take (2 * w.stride)) (w.rest.toOctets.take w.stride) =
      .ok (Hex.encode (w.rest.toOctets.take w.stride)) := by
    refine fill_eq_ok_iff.mpr ⟨?_, rfl⟩
    rw [List.length_take_of_le hroom, ← ChunkedBuffer.take_first w.rest hshown,
      List.length_take_of_le hshown]
  have hskip := ChunkedBuffer.advance?_eq_some_iff.mpr ⟨h.stride_le, rfl⟩
  unfold stride at hwindow hoctets hfill hskip
  simp only [step, hwindow, hoctets, hfill, hskip, bind, Except.bind]
  rfl

theorem Ready.after (h : w.Ready) : (w.after w.stride).Ready := by
  constructor
  · exact h.sound.skip w.stride
  · have htaken : (w.rest.toOctets.take w.stride).length = w.stride := by
      rw [List.length_take_of_le]
      rw [← h.sound.remaining_eq]
      exact h.stride_le
    have hroom : w.stride ≤ stepSize := Nat.min_le_right ..
    simp only [Writing.after, List.length_append, Hex.length_encode, htaken, List.length_drop,
      h.scratch_eq]
    omega

/-- The steps of a writing come to an end, with this literal. -/
inductive Ends : Writing → Octets → Prop
  | done {w : Writing} (hnone : w.rest.remaining = 0) : Ends w w.written
  | step {w next : Writing} {literal : Octets} (hleft : w.rest.remaining ≠ 0)
      (hstep : w.step = .ok next) (hends : Ends next literal) : Ends w literal

theorem Ready.ends (h : w.Ready) : w.Ends (w.written ++ Hex.encode w.rest.toOctets) := by
  have hremaining := h.sound.remaining_eq
  -- Strong induction, since a step takes as many octets as its first chunk shows.
  induction hleft : w.rest.remaining using Nat.strongRecOn generalizing w with
  | ind left ih =>
      by_cases hzero : w.rest.remaining = 0
      · have hempty : w.rest.toOctets = [] := List.eq_nil_of_length_eq_zero (by omega)
        rw [hempty, Hex.encode_nil, List.append_nil]
        exact .done hzero
      · have hpos := h.stride_pos hzero
        have hle := h.stride_le
        have hready := h.after
        have hless : (w.after w.stride).rest.remaining < left := by
          show w.rest.remaining - w.stride < left
          omega
        have hends := ih _ hless hready hready.sound.remaining_eq rfl
        have hall : (w.after w.stride).written ++ Hex.encode (w.after w.stride).rest.toOctets =
            w.written ++ Hex.encode w.rest.toOctets := by
          simp only [Writing.after, ChunkedBuffer.toOctets_skip, List.append_assoc]
          rw [← Hex.encode_append, List.take_append_drop]
        rw [hall] at hends
        exact .step hzero h.step_eq hends

theorem step_eq_ok {next : Writing} (h : w.step = .ok next) :
    w.stride ≤ w.rest.remaining ∧
      next = ⟨w.rest.skip w.stride,
        Hex.encode (w.rest.first.take w.stride) ++ w.scratch.drop (2 * w.stride),
        w.written ++ Hex.encode (w.rest.first.take w.stride)⟩ := by
  obtain ⟨room, -, h⟩ := bind_eq_ok_iff.mp h
  obtain ⟨octets, hoctets, h⟩ := bind_eq_ok_iff.mp h
  obtain ⟨digits, hdigits, h⟩ := bind_eq_ok_iff.mp h
  obtain ⟨-, rfl⟩ := window_eq_ok_iff.mp hoctets
  obtain ⟨-, rfl⟩ := fill_eq_ok_iff.mp hdigits
  split at h
  · cases h
  next rest hadvance =>
    obtain ⟨hle, rfl⟩ := ChunkedBuffer.advance?_eq_some_iff.mp hadvance
    exact ⟨hle, (Except.ok.inj h).symm⟩

/-- A step that skips nothing leaves the writing as it is. -/
theorem eq_of_step_of_le {next : Writing} (hstep : w.step = .ok next)
    (hle : w.rest.remaining ≤ next.rest.remaining) : next = w := by
  obtain ⟨hstride, rfl⟩ := step_eq_ok hstep
  have hnothing : w.stride = 0 := by
    have hskipped : w.rest.remaining ≤ w.rest.remaining - w.stride := hle
    omega
  rw [hnothing]
  simp

theorem finish_eq_ok_iff : w.finish = .ok literal ↔ w.Ends literal := by
  constructor
  · intro hfinish
    fun_induction finish w with
    | case1 w hnone =>
        cases hfinish
        exact .done hnone
    | case2 => cases hfinish
    | case3 w hleft next hstep hless ih => exact .step hleft hstep (ih hfinish)
    | case4 => cases hfinish
  · intro hends
    induction hends with
    | done hnone => rw [finish, if_pos hnone]
    | @step w next literal hleft hstep hends ih =>
        by_cases hless : next.rest.remaining < w.rest.remaining
        · rw [finish, if_neg hleft, hstep]
          exact (if_pos hless).trans ih
        -- A step that takes nothing off would be made again for ever, so no end can follow it.
        · have hstays := eq_of_step_of_le hstep (Nat.le_of_not_lt hless)
          have hendless : w.finish = .error .endless := by
            rw [finish, if_neg hleft, hstep]
            exact if_neg hless
          rw [hstays] at ih
          cases hendless.symm.trans ih

end Writing

variable {b : ChunkedBuffer}

theorem write_eq (h : b.Sound) : write b = .ok (marker ++ Hex.encode b.toOctets) :=
  Writing.finish_eq_ok_iff.mpr (Writing.ready_begin h).ends

/-- **A literal is written to its end, whatever the chunks.**  For every buffer that is made by adding
chunks and skipping octets, the steps of the writing come to an end and none of them goes wrong.  The
literal is the marker and then the two lower-case digits of each octet, in order, and so is the same
for all buffers of the same octets. -/
theorem write_made (h : b.Made) :
    ∃ literal, write b = .ok literal ∧ Writing.Ends { rest := b } literal ∧
      literal = marker ++ Hex.encode b.toOctets ∧
      (∀ i octet, b.toOctets[i]? = some octet →
        literal[2 * i + 2]? = Hex.lowerDigits[octet.toNat / 16]? ∧
          literal[2 * i + 3]? = Hex.lowerDigits[octet.toNat % 16]?) ∧
      literal.length = 2 + 2 * b.remaining ∧
      ∀ b' : ChunkedBuffer, b'.Made → b'.toOctets = b.toOctets → write b' = .ok literal := by
  have hwrite := write_eq h.sound
  refine ⟨_, hwrite, Writing.finish_eq_ok_iff.mp hwrite, rfl, ?_, ?_, ?_⟩
  · intro i octet hoctet
    exact Hex.getElem?_encode hoctet
  · rw [List.length_append, Hex.length_encode, h.sound.remaining_eq]
    rfl
  · intro b' hmade hsame
    rw [write_eq hmade.sound, hsame]

/-- Three chunks and an empty one, of which octets were skipped up to the middle of the second. -/
theorem write_made_skipped :
    let b : ChunkedBuffer := ⟨[[0x0a], [0xff, 0x00]], 3⟩
    b.Made ∧ write b = .ok (Octets.ofString "\\x0aff00") := by
  intro b
  have hadded := (((ChunkedBuffer.Made.empty.add [1, 2]).add []).add [3, 0x0a]).add [0xff, 0x00]
  have hmade : b.Made := hadded.advance (n := 3) rfl
  obtain ⟨literal, hwrite, -, rfl, -⟩ := write_made hmade
  exact ⟨hmade, hwrite⟩

end PgFrontend.Bytea
