import PgFrontend.Proofs.Value.Writing
import PgFrontend.Value.Codec
/-!
# What becomes of a blob that is encoded

A production reads its blob and then discards it, and a production that is given up discards the
blob on its way out.  `Started` is the invariant of a production that was polled: the calls that its
blob has received are fixed by the phase, and what was gathered and what is left of the stream
together come to what the whole stream comes to.

Polls end where the stream or the discard has to be waited for, so a production can be given up
between any two of them.  `left` counts the polls that are still needed if the production can end at
all; each poll lowers it.
-/

namespace PgFrontend

namespace Stream

/-- What a stream comes to: its chunks put together, or its first failure.  A stream that is waited
for without end comes to nothing. -/
def total (s : Stream) : Option (Except Fault Octets) :=
  match collect s.beats with
  | (_, some fault) => some (.error fault)
  | (chunks, none) => if s.stalls then none else some (.ok chunks.flatten)

@[simp] theorem total_stalled : total ⟨[], true⟩ = none := rfl

@[simp] theorem total_ended : total ⟨[], false⟩ = some (.ok []) := rfl

@[simp] theorem total_pause (beats : List Beat) (stalls : Bool) :
    total ⟨.pause :: beats, stalls⟩ = total ⟨beats, stalls⟩ := rfl

@[simp] theorem total_failure (fault : Fault) (beats : List Beat) (stalls : Bool) :
    total ⟨.failure fault :: beats, stalls⟩ = some (.error fault) := rfl

@[simp] theorem total_chunk (octets : Octets) (beats : List Beat) (stalls : Bool) :
    total ⟨.chunk octets :: beats, stalls⟩ =
      (total ⟨beats, stalls⟩).map (·.map (octets ++ ·)) := by
  unfold total
  simp only [collect]
  obtain ⟨chunks, _ | fault⟩ := collect beats
  · cases stalls <;> rfl
  · rfl

def waits (beats : List Beat) : Nat :=
  (beats.filter (· == .pause)).length

@[simp] theorem waits_pause (beats : List Beat) : waits (.pause :: beats) = waits beats + 1 := rfl

@[simp] theorem waits_chunk (octets : Octets) (beats : List Beat) :
    waits (.chunk octets :: beats) = waits beats := rfl

end Stream

@[simp] theorem Blob.discardPauses_stream (b : Blob) :
    b.stream.2.discardPauses = b.discardPauses := by
  cases b <;> rfl

namespace Production

/-- How the reading of a blob comes to its end, and the result that this leads to. -/
inductive Concluded (b : Blob) : BlobCall → Except Fault Octets → Prop
  | ended {octets : Octets} (htotal : b.stream.1.total = some (.ok octets)) :
      Concluded b .ended (.ok (Bytea.marker ++ Hex.encode octets))
  | failed {fault : Fault} (htotal : b.stream.1.total = some (.error fault)) :
      Concluded b .failed (.error fault)

/-- A production of a blob that was polled at least once and was not given up. -/
inductive Started (b : Blob) : Production → Prop
  | streaming {rest : Stream} {gathered : ChunkedBuffer} (hsound : gathered.Sound)
      (htotal : b.stream.1.total = rest.total.map (·.map (gathered.toOctets ++ ·))) :
      Started b ⟨some b.stream.2, .streaming rest gathered, [.stream]⟩
  | discarding {pauses : Option Nat} {result : Except Fault Octets} {last : BlobCall}
      (hconcluded : Concluded b last result) (hmore : pauses ≠ some 0)
      (hpauses : pauses.isSome = b.discardPauses.isSome) :
      Started b ⟨none, .discarding pauses result, [.stream, last, .discard]⟩
  | finished {result : Except Fault Octets} {last : BlobCall} (hconcluded : Concluded b last result)
      (hdiscard : b.discardPauses.isSome = true) :
      Started b ⟨none, .finished result, [.stream, last, .discard, .released]⟩

variable {b : Blob} {p : Production}

theorem await_started {phase : Phase} {last : BlobCall} {result : Except Fault Octets}
    {pauses : Option Nat} (hconcluded : Concluded b last result)
    (hpauses : pauses.isSome = b.discardPauses.isSome) :
    Started b (await ⟨none, phase, [.stream, last, .discard]⟩ result pauses) := by
  cases pauses with
  | none => exact .discarding hconcluded nofun hpauses
  | some n =>
      cases n with
      | zero => exact .finished hconcluded hpauses.symm
      | succ n => exact .discarding hconcluded (by simp) hpauses

theorem settle_started {phase : Phase} {last : BlobCall} {result : Except Fault Octets}
    (hconcluded : Concluded b last result) :
    Started b (settle ⟨some b.stream.2, phase, [.stream, last]⟩ result) := by
  apply await_started hconcluded
  rw [Blob.discardPauses_stream]

theorem gather_started (phase : Phase) (stalls : Bool) (beats : List Beat)
    {gathered : ChunkedBuffer} (hsound : gathered.Sound)
    (htotal : b.stream.1.total =
      (Stream.total ⟨beats, stalls⟩).map (·.map (gathered.toOctets ++ ·))) :
    Started b (gather ⟨some b.stream.2, phase, [.stream]⟩ stalls beats gathered) := by
  induction beats generalizing gathered with
  | nil =>
      cases stalls with
      | true => exact .streaming hsound htotal
      | false =>
          have hall : b.stream.1.total = some (.ok gathered.toOctets) := by
            simpa [Except.map] using htotal
          have hwritten := Bytea.write_eq hsound
          simp only [gather, Bool.false_eq_true, if_false, hwritten]
          exact settle_started (.ended hall)
  | cons beat beats ih =>
      cases beat with
      | pause => exact .streaming hsound htotal
      | chunk octets =>
          apply ih (hsound.add octets)
          rw [htotal, Stream.total_chunk, ChunkedBuffer.toOctets_add]
          cases Stream.total ⟨beats, stalls⟩ with
          | none => rfl
          | some r => cases r <;> simp [Except.map]
      | failure fault => exact settle_started (.failed htotal)

theorem poll_started (b : Blob) : Started b (poll { guard := some b }) := by
  apply gather_started _ _ _ ChunkedBuffer.sound_empty
  show b.stream.1.total = b.stream.1.total.map (·.map (fun octets => octets))
  cases b.stream.1.total with
  | none => rfl
  | some r => cases r <;> rfl

theorem Started.poll (h : Started b p) : Started b p.poll := by
  cases h with
  | streaming hsound htotal => exact gather_started _ _ _ hsound htotal
  | @discarding pauses result last hconcluded hmore hpauses =>
      match pauses with
      | none => exact .discarding hconcluded hmore hpauses
      | some 0 => exact absurd rfl hmore
      | some (n + 1) => exact await_started hconcluded hpauses
  | finished hconcluded hdiscard => exact .finished hconcluded hdiscard

theorem Started.pollTimes (h : Started b p) (n : Nat) : Started b (p.pollTimes n) := by
  induction n generalizing p with
  | zero => exact h
  | succ n ih => exact ih h.poll

theorem pollTimes_succ_started (b : Blob) (n : Nat) :
    Started b (pollTimes (n + 1) { guard := some b }) :=
  (poll_started b).pollTimes n

/-! ## The guard -/

/-- What the guard of a production of `b` holds in a phase. -/
def held (b : Blob) : Phase → Option Blob
  | .idle => some b
  | .streaming .. => some b.stream.2
  | _ => none

theorem Started.guard_eq (h : Started b p) : p.guard = held b p.phase := by
  cases h with
  | streaming => rfl
  | discarding => rfl
  | finished => rfl

theorem guard_pollTimes (b : Blob) (n : Nat) :
    (pollTimes n { guard := some b }).guard = held b (pollTimes n { guard := some b }).phase := by
  cases n with
  | zero => rfl
  | succ n => exact (pollTimes_succ_started b n).guard_eq

/-- The writing of a literal never breaks off. -/
theorem phase_pollTimes_ne_broken (b : Blob) (n : Nat) (mishap : Bytea.Mishap) :
    (pollTimes n { guard := some b }).phase ≠ .broken mishap := by
  cases n with
  | zero => nofun
  | succ n =>
      intro hbroken
      have hstarted := pollTimes_succ_started b n
      generalize pollTimes (n + 1) { guard := some b } = p at hstarted hbroken
      cases hstarted <;> cases hbroken

theorem guard_abandon (p : Production) (inRuntime : Bool) : (p.abandon inRuntime).guard = none := by
  cases hguard : p.guard with
  | none => simp only [abandon, hguard]
  | some blob =>
      simp only [abandon, hguard]
      split <;> rfl

/-- To give a production up a second time does nothing. -/
theorem calls_abandon_abandon (p : Production) (inRuntime later : Bool) :
    ((p.abandon inRuntime).abandon later).calls = (p.abandon inRuntime).calls := by
  have hguard := guard_abandon p inRuntime
  generalize p.abandon inRuntime = left at hguard
  simp only [abandon, hguard]

/-! ## The calls -/

/-- To give a production up discards what its guard still holds, and nothing else. -/
theorem count_discard_abandon (p : Production) (inRuntime : Bool) :
    (p.abandon inRuntime).calls.count .discard =
      p.calls.count .discard + if p.guard.isSome then 1 else 0 := by
  cases hguard : p.guard with
  | none => simp [abandon, hguard]
  | some blob =>
      simp only [abandon, hguard]
      split <;> simp [note]

theorem count_stream_abandon (p : Production) (inRuntime : Bool) :
    (p.abandon inRuntime).calls.count .stream = p.calls.count .stream := by
  cases hguard : p.guard with
  | none => simp [abandon, hguard]
  | some blob =>
      simp only [abandon, hguard]
      split <;> simp [note]

theorem count_abandon_idle (b : Blob) (inRuntime : Bool) :
    (abandon inRuntime { guard := some b }).calls.count .discard = 1 ∧
      (abandon inRuntime { guard := some b }).calls.count .stream = 0 := by
  rw [count_discard_abandon, count_stream_abandon]
  exact ⟨rfl, rfl⟩

theorem Concluded.last_eq {last : BlobCall} {result : Except Fault Octets}
    (h : Concluded b last result) : last = .ended ∨ last = .failed := by
  cases h with
  | ended => exact .inl rfl
  | failed => exact .inr rfl

theorem Started.count_abandon (h : Started b p) (inRuntime : Bool) :
    (p.abandon inRuntime).calls.count .discard = 1 ∧
      (p.abandon inRuntime).calls.count .stream = 1 := by
  rw [count_discard_abandon, count_stream_abandon]
  cases h with
  | streaming => exact ⟨rfl, rfl⟩
  | discarding hconcluded => rcases hconcluded.last_eq with rfl | rfl <;> exact ⟨rfl, rfl⟩
  | finished hconcluded => rcases hconcluded.last_eq with rfl | rfl <;> exact ⟨rfl, rfl⟩

theorem Started.of_result (h : Started b p) {result : Except Fault Octets}
    (hresult : p.result? = some result) :
    b.discardPauses.isSome = true ∧ (∀ inRuntime, p.abandon inRuntime = p) ∧
      ∃ last, Concluded b last result ∧ p.calls = [.stream, last, .discard, .released] := by
  cases h with
  | streaming => cases hresult
  | discarding => cases hresult
  | @finished result last hconcluded hdiscard =>
      cases hresult
      exact ⟨hdiscard, fun _ => rfl, last, hconcluded, rfl⟩

/-! ## The end -/

/-- How often the discard of what the guard holds has to be waited for, if it ends. -/
def discardLeft (p : Production) : Nat :=
  (p.guard.bind Blob.discardPauses).getD 0

/-- How many polls a production that was polled still needs, if it can end. -/
def left (p : Production) : Nat :=
  match p.phase with
  | .streaming rest _ => 1 + Stream.waits rest.beats + p.discardLeft
  | .discarding pauses _ => pauses.getD 0
  | _ => 0

theorem left_await (p : Production) (result : Except Fault Octets) (pauses : Option Nat) :
    (p.await result pauses).left = pauses.getD 0 := by
  match pauses with
  | none => rfl
  | some 0 => rfl
  | some (n + 1) => rfl

theorem left_settle (p : Production) (result : Except Fault Octets) :
    (p.settle result).left = p.discardLeft := by
  cases hguard : p.guard with
  | none => simp [settle, discardLeft, left, hguard]
  | some blob => simp [settle, discardLeft, left_await, hguard]

theorem left_settleWriting (p : Production) (written : Except Bytea.Mishap Octets) :
    (p.settleWriting written).left ≤ p.discardLeft := by
  unfold settleWriting
  split
  next => exact Nat.le_of_eq (left_settle ..)
  next => exact Nat.le_of_eq (left_settle ..)
  next => exact Nat.zero_le _

theorem left_gather (p : Production) {stalls : Bool} {beats : List Beat} (gathered : ChunkedBuffer)
    (hends : (Stream.total ⟨beats, stalls⟩).isSome = true) :
    (p.gather stalls beats gathered).left ≤ Stream.waits beats + p.discardLeft := by
  induction beats generalizing gathered with
  | nil =>
      cases stalls with
      | true => cases hends
      | false =>
          have hwriting := left_settleWriting (p.note .ended) (Bytea.write gathered)
          exact Nat.le_trans hwriting (Nat.le_add_left ..)
  | cons beat beats ih =>
      cases beat with
      | pause =>
          simp only [gather, left, discardLeft, Stream.waits_pause]
          omega
      | chunk octets =>
          rw [gather, Stream.waits_chunk]
          apply ih
          simpa using hends
      | failure fault =>
          rw [gather, left_settle]
          exact Nat.le_add_left ..

theorem Started.left_poll (h : Started b p) (hends : b.stream.1.total.isSome = true) :
    p.poll.left ≤ p.left - 1 := by
  cases h with
  | @streaming rest gathered hsound htotal =>
      have hrest : rest.total.isSome = true := by
        rw [htotal, Option.isSome_map] at hends
        exact hends
      have hgather := left_gather ⟨some b.stream.2, .streaming rest gathered, [.stream]⟩ gathered hrest
      simp only [left] at hgather ⊢
      unfold Production.poll
      dsimp only
      omega
  | @discarding pauses result last =>
      match pauses with
      | none => exact Nat.le_refl 0
      | some 0 => exact Nat.le_refl 0
      | some (n + 1) =>
          show (await _ result (some n)).left ≤ _
          rw [left_await]
          exact Nat.le_refl n
  | finished => exact Nat.le_refl 0

theorem Started.exists_result (h : Started b p) (hends : b.stream.1.total.isSome = true)
    (hdiscard : b.discardPauses.isSome = true) {n : Nat} (hn : p.left ≤ n) :
    ∃ result, (p.pollTimes n).result? = some result := by
  induction n generalizing p with
  | zero =>
      cases h with
      | streaming =>
          simp only [left] at hn
          omega
      | @discarding pauses _ _ _ hmore hpauses =>
          rw [hdiscard] at hpauses
          obtain ⟨m, rfl⟩ := Option.isSome_iff_exists.mp hpauses
          have hzero : m = 0 := Nat.le_zero.mp hn
          exact absurd (congrArg some hzero) hmore
      | @finished result => exact ⟨result, rfl⟩
  | succ n ih =>
      apply ih h.poll
      have hpoll := h.left_poll hends
      omega

/-- A production that can end has ended after `patience` polls. -/
theorem exists_result_patience (hends : b.stream.1.total.isSome = true)
    (hdiscard : b.discardPauses.isSome = true) :
    ∃ result, (pollTimes (patience { guard := some b }) { guard := some b }).result? = some result := by
  have hsucc : patience { guard := some b } =
      Stream.waits b.stream.1.beats + b.discardPauses.getD 0 + 1 := by
    unfold patience Stream.waits
    dsimp only
    omega
  rw [hsucc]
  apply (poll_started b).exists_result hends hdiscard
  have htotal : b.stream.1.total.isSome := hends
  have hgather := left_gather ⟨some b.stream.2, .idle, [.stream]⟩ {} htotal
  rwa [discardLeft, Option.bind_some, Blob.discardPauses_stream] at hgather

theorem concluded_of_total {r : Except Fault Octets} (h : b.stream.1.total = some r) :
    ∃ last, Concluded b last (r.map (Bytea.marker ++ Hex.encode ·)) := by
  cases r with
  | ok octets => exact ⟨_, .ended h⟩
  | error fault => exact ⟨_, .failed h⟩

theorem Concluded.total_eq {last : BlobCall} {result : Except Fault Octets}
    (h : Concluded b last result) :
    b.stream.1.total.map (·.map (Bytea.marker ++ Hex.encode ·)) = some result := by
  cases h with
  | ended htotal => rw [htotal]; rfl
  | failed htotal => rw [htotal]; rfl

theorem Concluded.unique {last last' : BlobCall} {result result' : Except Fault Octets}
    (h : Concluded b last result) (h' : Concluded b last' result') : result = result' :=
  Option.some.inj (h.total_eq.symm.trans h'.total_eq)

theorem Concluded.ends {last : BlobCall} {result : Except Fault Octets}
    (h : Concluded b last result) : b.stream.1.total.isSome = true := by
  cases h with
  | ended htotal => rw [htotal]; rfl
  | failed htotal => rw [htotal]; rfl

theorem concluded_of_result {n : Nat} {result : Except Fault Octets}
    (h : (pollTimes n { guard := some b }).result? = some result) :
    b.discardPauses.isSome = true ∧
      (∀ inRuntime, (pollTimes n { guard := some b }).abandon inRuntime = pollTimes n { guard := some b }) ∧
      ∃ last, Concluded b last result ∧
        (pollTimes n { guard := some b }).calls = [.stream, last, .discard, .released] := by
  cases n with
  | zero => cases h
  | succ n => exact (pollTimes_succ_started b n).of_result h

/-- Productions that can end are seen to their end, and with the right result. -/
theorem result?_run {last : BlobCall} {result : Except Fault Octets}
    (h : Concluded b last result) (hdiscard : b.discardPauses.isSome = true) (inRuntime : Bool) :
    (run inRuntime { guard := some b }).result? = some result := by
  obtain ⟨result', hresult⟩ := exists_result_patience h.ends hdiscard
  obtain ⟨-, hstays, last', hconcluded, -⟩ := concluded_of_result hresult
  rw [run, hstays, hresult, hconcluded.unique h]

/-- **The blob of a `bytea` parameter is discarded exactly once**, for every blob and whenever its
production is given up: before the first poll, at any wait, or not before its end.  Its stream is
asked for once if the production was polled and not at all otherwise, and neither happens when the
parameter is made.  A production that ends by itself has seen the stream end or fail before it
discards the blob; its result is the literal of all chunks or the first failure.  It does end if the
stream and the discard do. -/
theorem encode_discards_once (b : Blob) :
    ∃ parameter production, Codec.blob.encode (.blob b) = .ok parameter ∧
      parameter.value = some (.deferred production) ∧ production.calls = [] ∧
      (∀ n inRuntime,
        let fate := (production.pollTimes n).abandon inRuntime
        fate.calls.count .discard = 1 ∧ fate.calls.count .stream = if n = 0 then 0 else 1) ∧
      (∀ n result, (production.pollTimes n).result? = some result →
        ∃ last, Concluded b last result ∧
          ∀ inRuntime, ((production.pollTimes n).abandon inRuntime).calls =
            [.stream, last, .discard, .released]) ∧
      ∀ result, (∃ n, (production.pollTimes n).result? = some result) ↔
        b.discardPauses.isSome = true ∧ ∃ last, Concluded b last result := by
  refine ⟨_, { guard := some b }, rfl, rfl, rfl, ?_, ?_, ?_⟩
  · intro n inRuntime
    cases n with
    | zero => exact count_abandon_idle b inRuntime
    | succ n => exact (pollTimes_succ_started b n).count_abandon inRuntime
  · intro n result hresult
    obtain ⟨-, hstays, last, hconcluded, hcalls⟩ := concluded_of_result hresult
    refine ⟨last, hconcluded, fun inRuntime => ?_⟩
    rw [hstays, hcalls]
  · intro result
    constructor
    · rintro ⟨n, hresult⟩
      obtain ⟨hdiscard, -, last, hconcluded, -⟩ := concluded_of_result hresult
      exact ⟨hdiscard, last, hconcluded⟩
    · rintro ⟨hdiscard, last, hconcluded⟩
      obtain ⟨result', hresult⟩ := exists_result_patience hconcluded.ends hdiscard
      obtain ⟨-, -, last', hconcluded', -⟩ := concluded_of_result hresult
      rw [hconcluded'.unique hconcluded] at hresult
      exact ⟨_, hresult⟩

end Production

end PgFrontend
