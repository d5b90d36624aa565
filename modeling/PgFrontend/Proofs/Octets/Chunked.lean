import PgFrontend.Octets.Chunked
/-!
# Sound chunked buffers

Buffers that are made by adding chunks and skipping octets hold no empty chunk and know how many
octets are left, so that a look at the first chunk shows octets as long as there are any.  This is what
lets copying out go on from one first chunk to the next until it has as many octets as were asked for.
-/

namespace PgFrontend.ChunkedBuffer

structure Sound (b : ChunkedBuffer) : Prop where
  nonempty : ∀ chunk ∈ b.chunks, chunk ≠ []
  remaining_eq : b.remaining = b.toOctets.length

theorem sound_empty : ({} : ChunkedBuffer).Sound :=
  ⟨by simp, rfl⟩

theorem Sound.add {b : ChunkedBuffer} (h : b.Sound) (chunk : Octets) : (b.add chunk).Sound := by
  constructor
  · unfold ChunkedBuffer.add
    split
    · exact h.nonempty
    next hchunk =>
      intro c hc
      rcases List.mem_append.mp hc with hold | hnew
      · exact h.nonempty c hold
      · rw [List.mem_singleton.mp hnew]
        simpa using hchunk
  · rw [toOctets_add, List.length_append, ← h.remaining_eq]
    unfold ChunkedBuffer.add
    split <;> simp_all

theorem dropChunks_nonempty {chunks : List Octets} (h : ∀ chunk ∈ chunks, chunk ≠ []) (n : Nat) :
    ∀ chunk ∈ dropChunks n chunks, chunk ≠ [] := by
  fun_induction dropChunks n chunks with
  | case1 => exact h
  | case2 => exact h
  | case3 n chunk chunks hshort =>
      intro c hc
      rcases List.mem_cons.mp hc with rfl | hc
      · apply List.ne_nil_of_length_pos
        rw [List.length_drop]
        omega
      · exact h c (List.mem_cons_of_mem _ hc)
  | case4 n chunk chunks hlong ih => exact ih fun c hc => h c (List.mem_cons_of_mem _ hc)

theorem Sound.skip {b : ChunkedBuffer} (h : b.Sound) (n : Nat) : (b.skip n).Sound := by
  constructor
  · exact dropChunks_nonempty h.nonempty n
  · rw [toOctets_skip, List.length_drop, ← h.remaining_eq]
    rfl

theorem first_prefix (b : ChunkedBuffer) : b.first <+: b.toOctets := by
  unfold first toOctets
  cases b.chunks with
  | nil => exact List.nil_prefix
  | cons chunk chunks => exact List.prefix_append chunk chunks.flatten

theorem Sound.first_eq_nil_iff {b : ChunkedBuffer} (h : b.Sound) :
    b.first = [] ↔ b.toOctets = [] := by
  have hnonempty := h.nonempty
  unfold first toOctets
  cases hchunks : b.chunks with
  | nil => simp
  | cons chunk chunks =>
      rw [hchunks] at hnonempty
      simp [hnonempty chunk (List.mem_cons_self ..)]

theorem Sound.first_ne_nil_iff {b : ChunkedBuffer} (h : b.Sound) :
    b.first ≠ [] ↔ 0 < b.remaining := by
  rw [ne_eq, h.first_eq_nil_iff, h.remaining_eq, List.length_pos_iff]

theorem Sound.first_pos {b : ChunkedBuffer} (h : b.Sound) (hleft : 0 < b.remaining) :
    0 < b.first.length :=
  List.length_pos_iff.mpr (h.first_ne_nil_iff.mpr hleft)

theorem Sound.first_le {b : ChunkedBuffer} (h : b.Sound) : b.first.length ≤ b.remaining := by
  rw [h.remaining_eq]
  exact b.first_prefix.length_le

theorem take_first (b : ChunkedBuffer) {n : Nat} (h : n ≤ b.first.length) :
    b.first.take n = b.toOctets.take n := by
  obtain ⟨rest, hrest⟩ := b.first_prefix
  rw [← hrest, List.take_append_of_le_length h]

theorem advance?_eq_some_iff {b b' : ChunkedBuffer} {n : Nat} :
    b.advance? n = some b' ↔ n ≤ b.remaining ∧ b.skip n = b' := by
  unfold advance?
  by_cases hn : n ≤ b.remaining <;> simp [hn]

/-- The buffers that come of an empty one by adding chunks and skipping octets. -/
inductive Made : ChunkedBuffer → Prop
  | empty : Made {}
  | add {b : ChunkedBuffer} (h : b.Made) (chunk : Octets) : Made (b.add chunk)
  | advance {b b' : ChunkedBuffer} {n : Nat} (h : b.Made) (hadvance : b.advance? n = some b') :
      Made b'

theorem Sound.advance {b b' : ChunkedBuffer} {n : Nat} (h : b.Sound)
    (hadvance : b.advance? n = some b') : b'.Sound := by
  obtain ⟨-, rfl⟩ := advance?_eq_some_iff.mp hadvance
  exact h.skip n

theorem Made.sound {b : ChunkedBuffer} (h : b.Made) : b.Sound := by
  induction h with
  | empty => exact sound_empty
  | add _ chunk ih => exact ih.add chunk
  | advance _ hadvance ih => exact ih.advance hadvance

/-- Copying out looks at one chunk after another, and still copies the octets as they follow. -/
theorem Sound.copyOut {b : ChunkedBuffer} (h : b.Sound) {n : Nat} (hn : n ≤ b.remaining) :
    ∃ b', b.copyOut n = some (b.toOctets.take n, b') ∧ b'.toOctets = b.toOctets.drop n ∧
      b'.Sound := by
  induction n using Nat.strongRecOn generalizing b with
  | ind n ih =>
      rw [ChunkedBuffer.copyOut]
      by_cases hzero : n = 0
      · subst hzero
        exact ⟨b, rfl, rfl, h⟩
      -- The first chunk shows something, so what is still to be copied becomes less.
      have hfirst := h.first_pos (by omega)
      have hsize : 0 < min b.first.length n := by omega
      generalize hmin : min b.first.length n = size at hsize ⊢
      have hleft : n - size ≤ (b.skip size).remaining := Nat.sub_le_sub_right hn size
      obtain ⟨b', hcopy, hdrop, hsound⟩ := ih (n - size) (by omega) (h.skip size) hleft
      have hsplit : size + (n - size) = n := by omega
      refine ⟨b', ?_, ?_, hsound⟩
      · have hcopied : b.toOctets.take size ++ (b.toOctets.drop size).take (n - size) =
            b.toOctets.take n := by
          rw [← List.take_add, hsplit]
        have hskip : b.advance? size = some (b.skip size) :=
          advance?_eq_some_iff.mpr ⟨by omega, rfl⟩
        rw [if_neg hzero, if_pos hsize, hskip]
        simp only [Option.bind_eq_bind, Option.bind_some, hcopy, toOctets_skip]
        rw [take_first b (by omega), hcopied]
        rfl
      · rw [hdrop, toOctets_skip, List.drop_drop, hsplit]

end PgFrontend.ChunkedBuffer
