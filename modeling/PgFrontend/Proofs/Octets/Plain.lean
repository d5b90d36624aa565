import PgFrontend.Proofs.Octets.Chunked
/-!
# Chunked buffers as plain octets

A chunked buffer can be used as the plain run of octets that it stands for.  The same calls are made
on buffers of both kinds, and on copies of them, which from then on are buffers next to the others.
`run_refines` says that all answers are the same, and that each chunked buffer stands for its plain
counterpart at the end.
-/

namespace PgFrontend

/-- What one buffer can be asked for. -/
inductive BufferRequest
  | add (chunk : Octets)
  | advance (n : Nat)
  | copyOut (n : Nat)
  deriving Repr, DecidableEq

/-- A call names its buffer by its place among those that there are. -/
inductive BufferCall
  | ask (place : Nat) (request : BufferRequest)
  /-- A copy becomes the last of the buffers. -/
  | clone (place : Nat)
  deriving Repr, DecidableEq

inductive BufferAnswer
  | done
  | copied (octets : Octets)
  /-- The buffer holds fewer octets than were asked for. -/
  | refused
  /-- There is no buffer at this place. -/
  | missing
  deriving Repr, DecidableEq

/-- A kind of buffer, by what its buffers can do. -/
structure BufferKind (β : Type) where
  empty : β
  add : β → Octets → β
  advance? : β → Nat → Option β
  take? : β → Nat → Option (Octets × β)

namespace BufferKind

variable {β : Type} (kind : BufferKind β)

/-- The answer to a request and the buffer after it, which is the same if the request is refused. -/
def answer (b : β) : BufferRequest → BufferAnswer × β
  | .add chunk => (.done, kind.add b chunk)
  | .advance n =>
      match kind.advance? b n with
      | none => (.refused, b)
      | some rest => (.done, rest)
  | .copyOut n =>
      match kind.take? b n with
      | none => (.refused, b)
      | some (octets, rest) => (.copied octets, rest)

def call (buffers : List β) : BufferCall → BufferAnswer × List β
  | .ask place request =>
      match buffers[place]? with
      | none => (.missing, buffers)
      | some b => ((kind.answer b request).1, buffers.set place (kind.answer b request).2)
  | .clone place =>
      match buffers[place]? with
      | none => (.missing, buffers)
      | some b => (.done, buffers ++ [b])

/-- The answers to a series of calls and the buffers after it. -/
def run (buffers : List β) : List BufferCall → List BufferAnswer × List β
  | [] => ([], buffers)
  | c :: calls =>
      ((kind.call buffers c).1 :: (run (kind.call buffers c).2 calls).1,
        (run (kind.call buffers c).2 calls).2)

theorem length_le_call (buffers : List β) (c : BufferCall) :
    buffers.length ≤ (kind.call buffers c).2.length := by
  cases c <;> simp only [call] <;> split <;> simp

/-- A call leaves every buffer as it is but the one that it asks. -/
theorem getElem?_call {buffers : List β} {place : Nat} {c : BufferCall}
    (hplace : place < buffers.length) (hother : ∀ request, c ≠ .ask place request) :
    (kind.call buffers c).2[place]? = buffers[place]? := by
  cases c with
  | ask asked request =>
      have hne : asked ≠ place := fun h => hother request (by rw [h])
      simp only [call]
      split
      · rfl
      · exact List.getElem?_set_ne hne
  | clone asked =>
      simp only [call]
      split
      · rfl
      · exact List.getElem?_append_left hplace

theorem getElem?_run {buffers : List β} {place : Nat} {calls : List BufferCall}
    (hplace : place < buffers.length) (hothers : ∀ request, .ask place request ∉ calls) :
    (kind.run buffers calls).2[place]? = buffers[place]? := by
  induction calls generalizing buffers with
  | nil => rfl
  | cons c calls ih =>
      have hfirst : ∀ request, c ≠ .ask place request := by
        intro request h
        exact hothers request (by simp [h])
      have hrest : ∀ request, .ask place request ∉ calls := by
        intro request h
        exact hothers request (List.mem_cons_of_mem c h)
      rw [run, ih (Nat.lt_of_lt_of_le hplace (kind.length_le_call buffers c)) hrest,
        kind.getElem?_call hplace hfirst]

def chunked : BufferKind ChunkedBuffer where
  empty := {}
  add := ChunkedBuffer.add
  advance? := ChunkedBuffer.advance?
  take? := ChunkedBuffer.take?

/-- Runs of octets as buffers. -/
def plain : BufferKind Octets where
  empty := []
  add s chunk := s ++ chunk
  advance? s n := if n ≤ s.length then some (s.drop n) else none
  take? s n := if n ≤ s.length then some (s.take n, s.drop n) else none

end BufferKind

namespace ChunkedBuffer

open BufferKind (plain chunked)

variable {b : ChunkedBuffer} {buffers : List ChunkedBuffer}

theorem Sound.answer (h : b.Sound) (request : BufferRequest) :
    (chunked.answer b request).2.Sound ∧
      plain.answer b.toOctets request =
        ((chunked.answer b request).1, (chunked.answer b request).2.toOctets) := by
  cases request with
  | add chunk =>
      refine ⟨h.add chunk, ?_⟩
      simp [BufferKind.answer, plain, chunked]
  | advance n =>
      simp only [BufferKind.answer, plain, chunked, advance?, ← h.remaining_eq]
      by_cases hn : n ≤ b.remaining
      · simp [hn, h.skip n]
      · simp [hn, h]
  | copyOut n =>
      simp only [BufferKind.answer, plain, chunked, take?, ← h.remaining_eq]
      by_cases hn : n ≤ b.remaining
      · obtain ⟨rest, hcopy, hrest, hsound⟩ := h.copyOut hn
        simp [hn, hcopy, hrest, hsound]
      · simp [hn, h]

/-- All buffers of a list are sound. -/
def AllSound (buffers : List ChunkedBuffer) : Prop :=
  ∀ b ∈ buffers, b.Sound

theorem AllSound.call (h : AllSound buffers) (c : BufferCall) :
    AllSound (chunked.call buffers c).2 ∧
      plain.call (buffers.map toOctets) c =
        ((chunked.call buffers c).1, (chunked.call buffers c).2.map toOctets) := by
  cases c with
  | ask place request =>
      simp only [BufferKind.call, List.getElem?_map]
      cases hfound : buffers[place]? with
      | none => exact ⟨h, rfl⟩
      | some b =>
          obtain ⟨hsound, hanswer⟩ := (h b (List.mem_of_getElem? hfound)).answer request
          constructor
          · intro b' hmem
            rcases List.mem_or_eq_of_mem_set hmem with hold | rfl
            · exact h b' hold
            · exact hsound
          · simp only [Option.map_some, hanswer, List.map_set]
  | clone place =>
      simp only [BufferKind.call, List.getElem?_map]
      cases hfound : buffers[place]? with
      | none => exact ⟨h, rfl⟩
      | some b =>
          constructor
          · intro b' hmem
            rcases List.mem_append.mp hmem with hold | hnew
            · exact h b' hold
            · rw [List.mem_singleton.mp hnew]
              exact h b (List.mem_of_getElem? hfound)
          · simp

theorem AllSound.run (h : AllSound buffers) (calls : List BufferCall) :
    AllSound (chunked.run buffers calls).2 ∧
      plain.run (buffers.map toOctets) calls =
        ((chunked.run buffers calls).1, (chunked.run buffers calls).2.map toOctets) := by
  induction calls generalizing buffers with
  | nil => exact ⟨h, rfl⟩
  | cons c calls ih =>
      obtain ⟨hsound, hcall⟩ := h.call c
      obtain ⟨hsounds, hrun⟩ := ih hsound
      refine ⟨hsounds, ?_⟩
      simp only [BufferKind.run, hcall, hrun]

/-- **A chunked buffer is used as the plain octets that it stands for.**  Whatever calls are made on
an empty buffer and on copies of it and of each other, the answers are those of plain octets: adding
appends, skipping and copying out take octets off the front, and both are refused, with nothing
changed, where fewer octets are left than were asked for.  Each buffer then stands for its plain
counterpart, keeps no empty chunk and knows how many octets are left; a look at its first chunk shows
the first of them, and some as long as there are any.  A buffer stays as it is whatever the other
buffers, its copies among them, are asked for. -/
theorem run_refines (calls : List BufferCall) :
    let (answers, buffers) := chunked.run [chunked.empty] calls
    plain.run [plain.empty] calls = (answers, buffers.map toOctets) ∧
      (∀ b ∈ buffers, (∀ chunk ∈ b.chunks, chunk ≠ []) ∧ b.remaining = b.toOctets.length ∧
        b.first <+: b.toOctets ∧ (b.first ≠ [] ↔ 0 < b.remaining)) ∧
      ∀ place < buffers.length, ∀ more, (∀ request, .ask place request ∉ more) →
        (chunked.run buffers more).2[place]? = buffers[place]? := by
  have hempty : AllSound [chunked.empty] := by
    intro b hb
    rw [List.mem_singleton.mp hb]
    exact sound_empty
  obtain ⟨hsound, hrun⟩ := hempty.run calls
  refine ⟨hrun, ?_, ?_⟩
  · intro b hb
    have h := hsound b hb
    exact ⟨h.nonempty, h.remaining_eq, b.first_prefix, h.first_ne_nil_iff⟩
  · intro place hplace more hothers
    exact chunked.getElem?_run hplace hothers

end ChunkedBuffer

end PgFrontend
