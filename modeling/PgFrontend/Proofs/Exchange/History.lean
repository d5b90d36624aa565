import Mathlib.Data.List.Chain
import Mathlib.Data.List.Induction
import PgFrontend.Proofs.Exchange.Calls
/-!
# Histories of exchanges

Which stages an exchange goes through.  `Stage.Move` lists the moves that it makes, and `Recorded`
is the invariant: the history begins at the first stage, goes on by moves, and ends where the
exchange stands.  `call_advance` says what one call adds to the history and `recorded_perform` what
that comes to over a run.

Nothing is assumed of the mechanisms or of the way of choosing one.
-/

namespace PgFrontend

/-- The moves that an exchange makes. -/
inductive Stage.Move : Stage → Stage → Prop
  | startupSent : Move .init .startupSent
  | challenged {s : Stage} (h : s.isAuthenticating = true) : Move s .challenged
  | authenticated {s : Stage} (h : s.isAuthenticating = true) : Move s .authenticated
  | responded : Move .challenged .responded
  | ready : Move .authenticated .ready
  | failed {s : Stage} (h : s ≠ .failed) : Move s .failed

namespace Stage

def rank : Stage → Nat
  | init => 0
  | startupSent => 1
  | challenged => 1
  | responded => 1
  | authenticated => 2
  | ready => 3
  | failed => 4

/-- Whether a stage may come before another one in a history.  Only the stages of authentication
may come again. -/
def Precedes (s t : Stage) : Prop :=
  s.rank < t.rank ∨ s.rank = 1 ∧ t.rank = 1

instance : DecidableRel Precedes :=
  fun s t => inferInstanceAs (Decidable (s.rank < t.rank ∨ s.rank = 1 ∧ t.rank = 1))

instance : Trans Precedes Precedes Precedes where
  trans hst htu := by
    unfold Precedes at *
    omega

theorem Move.precedes {s t : Stage} (h : s.Move t) : s.Precedes t := by
  cases h with
  | startupSent => decide
  | challenged h => revert h; cases s <;> decide
  | authenticated h => revert h; cases s <;> decide
  | responded => decide
  | ready => decide
  | failed h => revert h; cases s <;> decide

theorem count_le_one_of_pairwise {s : Stage} (hs : ¬s.Precedes s) {l : List Stage}
    (h : l.Pairwise Precedes) : l.count s ≤ 1 := by
  induction h with
  | nil => simp
  | @cons t l hhead _ ih =>
      by_cases hts : t = s
      · subst hts
        have hmem : t ∉ l := fun hmem => hs (hhead t hmem)
        simp [List.count_eq_zero.mpr hmem]
      · rw [List.count_cons_of_ne hts]
        exact ih

theorem count_le_one_of_isChain {s : Stage} (hs : s.rank ≠ 1) {l : List Stage}
    (h : l.IsChain Move) : l.count s ≤ 1 := by
  have hirrefl : ¬s.Precedes s := by
    unfold Precedes
    omega
  have hpairwise : l.Pairwise Precedes :=
    List.isChain_iff_pairwise.mp (h.imp fun _ _ => Move.precedes)
  exact count_le_one_of_pairwise hirrefl hpairwise

end Stage

namespace Exchange

variable {S H : Type}

/-- The history of an exchange is a record of moves that ends where the exchange stands. -/
structure Recorded (x : Exchange S H) : Prop where
  starts : x.history.head? = some .init
  moves : x.history.IsChain Stage.Move
  ends : x.history.getLast? = some x.stage

theorem recorded_start (chooser : S) : (start chooser : Exchange S H).Recorded :=
  ⟨rfl, .singleton _, rfl⟩

def isDone : Except Fault (Option Step) → Bool
  | .ok (some .done) => true
  | _ => false

def isSend : Except Fault (Option Step) → Bool
  | .ok (some (.send _)) => true
  | _ => false

/-- What a call with this result adds to the history of an exchange. -/
structure Advance (x : Exchange S H) (result : Except Fault (Option Step)) (y : Exchange S H)
    (entered : List Stage) : Prop where
  history_eq : y.history = x.history ++ entered
  moves : (x.stage :: entered).IsChain Stage.Move
  ends : (x.stage :: entered).getLast? = some y.stage
  count_ready : entered.count .ready = if isDone result then 1 else 0
  count_responded : entered.count .responded = if isSend result then 1 else 0

theorem Recorded.advance {x y : Exchange S H} {result : Except Fault (Option Step)}
    {entered : List Stage} (h : x.Recorded) (ha : Advance x result y entered) : y.Recorded := by
  obtain ⟨earlier, hearlier⟩ := List.getLast?_eq_some_iff.mp h.ends
  have hhistory : y.history = earlier ++ x.stage :: entered := by
    rw [ha.history_eq, hearlier]
    simp
  constructor
  · rw [ha.history_eq, List.head?_append, h.starts]
    rfl
  · rw [hhistory, List.isChain_split]
    exact ⟨hearlier ▸ h.moves, ha.moves⟩
  · rw [hhistory, List.getLast?_append, ha.ends]
    rfl

@[simp] theorem fail_stage (x : Exchange S H) : x.fail.stage = .failed := by
  unfold fail
  split
  next h => exact h
  · rfl

theorem fail_of_eq {x : Exchange S H} (h : x.stage = .failed) : x.fail = x :=
  if_pos h

theorem fail_advance (x : Exchange S H) (fault : Fault) :
    ∃ entered, Advance x (.error fault) x.fail entered := by
  by_cases hstage : x.stage = .failed
  · exact ⟨[], by simp [fail_of_eq hstage], .singleton _, by simp [hstage], rfl, rfl⟩
  · rw [fail_of_ne hstage]
    exact ⟨[.failed], rfl, List.isChain_pair.mpr (.failed hstage), rfl, rfl, rfl⟩

variable [Authenticator H] (select : S → AuthRequest → Except Fault H × S)

theorem startupSent_advance (x : Exchange S H) :
    ∃ entered, Advance x (x.call select .startupSent).1 (x.call select .startupSent).2 entered := by
  by_cases hstage : x.stage = .init
  · refine ⟨[.startupSent], ?_⟩
    rw [call, startupSent, if_pos hstage]
    constructor
    · rfl
    · rw [hstage]
      exact List.isChain_pair.mpr .startupSent
    all_goals rfl
  · refine ⟨[], ?_⟩
    rw [call, startupSent, if_neg hstage]
    exact ⟨by simp, .singleton _, rfl, rfl, rfl⟩

variable {select}

theorem Receipt.advance {x y : Exchange S H} {frame : Frame} {result : Except Fault Step}
    (h : Receipt select x frame result y) :
    ∃ entered, Advance x (result.map some) y entered := by
  cases h with
  | outOfTurn fault _ => exact fail_advance x fault
  | refused fault hturn =>
      have hmove : x.stage.Move .failed := .failed (ne_failed_of_isListening hturn)
      exact ⟨[.failed], rfl, List.isChain_pair.mpr hmove, rfl, rfl, rfl⟩
  | noted => exact ⟨[], by simp, .singleton _, rfl, rfl, rfl⟩
  | opened hstage =>
      have hmove : x.stage.Move .ready := hstage ▸ .ready
      exact ⟨[.ready], rfl, List.isChain_pair.mpr hmove, rfl, rfl, rfl⟩
  | admitted hstage =>
      exact ⟨[.authenticated], rfl, List.isChain_pair.mpr (.authenticated hstage), rfl, rfl, rfl⟩
  -- The move to `challenged` stands in the history before the answer is known to exist.
  | unchosen _ fault y hstage _ _ hchosen =>
      have hmoves : [x.stage, .challenged, .failed].IsChain Stage.Move :=
        .cons_cons (.challenged hstage) (List.isChain_pair.mpr (.failed (by decide)))
      exact ⟨[.challenged, .failed], by simp [hchosen.history_eq], hmoves, rfl, rfl, rfl⟩
  | unanswered _ fault side y hstage _ _ hchosen =>
      have hmoves : [x.stage, .challenged, .failed].IsChain Stage.Move :=
        .cons_cons (.challenged hstage) (List.isChain_pair.mpr (.failed (by decide)))
      exact ⟨[.challenged, .failed], by simp [hchosen.history_eq], hmoves, rfl, rfl, rfl⟩
  | replied _ reply side next y hstage _ _ hchosen =>
      have hmoves : [x.stage, .challenged, .responded].IsChain Stage.Move :=
        .cons_cons (.challenged hstage) (List.isChain_pair.mpr .responded)
      exact ⟨[.challenged, .responded], by simp [hchosen.history_eq], hmoves, rfl, rfl, rfl⟩
  | silent _ side next y hstage _ _ hchosen =>
      exact ⟨[.challenged], by simp [hchosen.history_eq],
        List.isChain_pair.mpr (.challenged hstage), by simp [hchosen.stage_eq], rfl, rfl⟩

variable (select)

theorem call_advance (x : Exchange S H) (c : Call) :
    ∃ entered, Advance x (x.call select c).1 (x.call select c).2 entered := by
  cases c with
  | startupSent => exact startupSent_advance select x
  | message frame => exact (receive_receipt select x frame).advance

theorem recorded_perform (chooser : S) (calls : List Call) :
    (perform select (start chooser) calls).2.Recorded := by
  induction calls using List.reverseRecOn with
  | nil => exact recorded_start chooser
  | append_singleton calls c ih =>
      obtain ⟨entered, hadvance⟩ := call_advance select (perform select (start chooser) calls).2 c
      rw [perform_concat]
      exact ih.advance hadvance

theorem countP_perform (chooser : S) (calls : List Call) :
    (perform select (start chooser) calls).1.countP isDone =
        (perform select (start chooser) calls).2.history.count .ready ∧
      (perform select (start chooser) calls).1.countP isSend =
        (perform select (start chooser) calls).2.history.count .responded := by
  induction calls using List.reverseRecOn with
  | nil => exact ⟨rfl, rfl⟩
  | append_singleton calls c ih =>
      obtain ⟨entered, hadvance⟩ := call_advance select (perform select (start chooser) calls).2 c
      rw [perform_concat]
      simp only [List.countP_append, List.countP_singleton, hadvance.history_eq, List.count_append,
        hadvance.count_ready, hadvance.count_responded, ih, and_self]

/-! ## Faults -/

variable {select} in
theorem Receipt.stage_of_error {x y : Exchange S H} {frame : Frame} {result : Except Fault Step}
    {fault : Fault} (h : Receipt select x frame result y) (hresult : result = .error fault) :
    y.stage = .failed := by
  subst hresult
  cases h <;> simp

theorem receive_of_failed {x : Exchange S H} (h : x.stage = .failed) (frame : Frame) :
    x.receive select frame = (.error (.internal (.messageOutOfTurn frame.tag .failed)), x) := by
  rw [receive_eq_settle, h, if_neg (by decide), settle_error, fail_of_eq h]

omit [Authenticator H] in
theorem startupSent_of_failed {x : Exchange S H} (h : x.stage = .failed) :
    x.startupSent = (.error (.internal (.startupTwice .failed)), x) := by
  rw [startupSent, h, if_neg (by decide)]

/-- What one call on an exchange does, by its result and the exchange after it. -/
structure CallLaw (x : Exchange S H) (c : Call) (result : Except Fault (Option Step))
    (y : Exchange S H) : Prop where
  /-- The history only grows, so that what was not there before was entered by this call. -/
  kept : x.history <+: y.history
  done_iff : result = .ok (some .done) ↔ .ready ∈ y.history.drop x.history.length
  send_iff : (∃ reply, result = .ok (some (.send reply))) ↔
    .responded ∈ y.history.drop x.history.length
  fault_fails : ∀ frame fault, c = .message frame → result = .error fault → y.stage = .failed
  failed_stays : x.stage = .failed →
    (∃ fault, result = .error fault) ∧ y.history = x.history ∧ y.outcome = x.outcome

theorem isDone_iff {result : Except Fault (Option Step)} :
    isDone result = true ↔ result = .ok (some .done) := by
  unfold isDone
  split <;> simp_all

theorem isSend_iff {result : Except Fault (Option Step)} :
    isSend result = true ↔ ∃ reply, result = .ok (some (.send reply)) := by
  unfold isSend
  split <;> simp_all

theorem call_lawful (x : Exchange S H) (c : Call) :
    CallLaw x c (x.call select c).1 (x.call select c).2 := by
  obtain ⟨entered, hadvance⟩ := call_advance select x c
  have hentered : (x.call select c).2.history.drop x.history.length = entered := by
    rw [hadvance.history_eq, List.drop_left]
  constructor
  · exact ⟨entered, hadvance.history_eq.symm⟩
  · rw [hentered, ← isDone_iff, ← List.count_pos_iff, hadvance.count_ready]
    split <;> simp_all
  · rw [hentered, ← isSend_iff, ← List.count_pos_iff, hadvance.count_responded]
    split <;> simp_all
  · rintro frame fault rfl hresult
    have htaken : (x.receive select frame).1 = .error fault := by
      rw [call] at hresult
      generalize (x.receive select frame).1 = taken at hresult ⊢
      cases taken with
      | ok step => cases hresult
      | error _ => exact congrArg _ (Except.error.inj hresult)
    exact (receive_receipt select x frame).stage_of_error htaken
  · intro hfailed
    cases c with
    | startupSent =>
        rw [call, startupSent_of_failed hfailed]
        exact ⟨⟨_, rfl⟩, rfl, rfl⟩
    | message frame =>
        rw [call, receive_of_failed select hfailed]
        exact ⟨⟨_, rfl⟩, rfl, rfl⟩

/-! ## The chooser -/

/-- The chooser was asked at most once, and only when no side answers or no message is taken any
more can it have been asked in vain. -/
structure AskedOnce (x : Exchange (S × Nat) H) : Prop where
  le_one : x.chooser.2 ≤ 1
  unasked : x.handler = none → x.stage ≠ .failed → x.chooser.2 = 0

variable {select}

theorem Chosen.asked_le_one {x y : Exchange (S × Nat) H} {request : AuthRequest}
    {found : Except Fault H} (h : Chosen (tallied select) x request found y) (hx : x.AskedOnce)
    (hstage : x.stage ≠ .failed) : y.chooser.2 ≤ 1 := by
  have hcount (asked : Except Fault H) (chooser : S × Nat)
      (hselect : tallied select x.chooser request = (asked, chooser)) :
      chooser.2 = x.chooser.2 + 1 :=
    (congrArg (·.2.2) hselect).symm
  cases h with
  | before => exact hx.le_one
  | now side chooser hhandler hselect =>
      have := hx.unasked hhandler hstage
      have := hcount _ chooser hselect
      dsimp only
      omega
  | never fault chooser hhandler hselect =>
      have := hx.unasked hhandler hstage
      have := hcount _ chooser hselect
      dsimp only
      omega

omit [Authenticator H] in
theorem AskedOnce.fail {x : Exchange (S × Nat) H} (h : x.AskedOnce) : x.fail.AskedOnce := by
  constructor
  · unfold Exchange.fail
    split <;> exact h.le_one
  · exact fun _ hstage => absurd (fail_stage x) hstage

omit [Authenticator H] in
theorem AskedOnce.enter {x : Exchange (S × Nat) H} (h : x.AskedOnce) (hstage : x.stage ≠ .failed)
    (s : Stage) : (x.enter s).AskedOnce :=
  ⟨h.le_one, fun hhandler _ => h.unasked hhandler hstage⟩

theorem AskedOnce.receipt {x y : Exchange (S × Nat) H} {frame : Frame}
    {result : Except Fault Step} (h : x.AskedOnce)
    (hreceipt : Receipt (tallied select) x frame result y) : y.AskedOnce := by
  have hanswered {request : AuthRequest} {found : Except Fault H} {y : Exchange (S × Nat) H}
      (hstage : x.stage.isAuthenticating = true)
      (hchosen : Chosen (tallied select) (x.enter .challenged) request found y) :
      y.chooser.2 ≤ 1 :=
    hchosen.asked_le_one (h.enter (ne_failed_of_isAuthenticating hstage) _) (by simp)
  cases hreceipt with
  | outOfTurn => exact h.fail
  | refused _ hturn => exact h.enter (ne_failed_of_isListening hturn) _
  | noted => exact ⟨h.le_one, h.unasked⟩
  | opened hstage => exact h.enter (by simp [hstage]) _
  | admitted hstage => exact h.enter (ne_failed_of_isAuthenticating hstage) _
  | unchosen _ _ y hstage _ _ hchosen =>
      have hle := hanswered hstage hchosen
      exact ⟨hle, fun _ hfailed => absurd rfl hfailed⟩
  | unanswered _ _ _ y hstage _ _ hchosen =>
      have hle := hanswered hstage hchosen
      exact ⟨hle, fun _ hfailed => absurd rfl hfailed⟩
  | replied _ _ _ next y hstage _ _ hchosen =>
      have hle := hanswered hstage hchosen
      exact ⟨hle, fun hhandler => nomatch hhandler⟩
  | silent _ _ next y hstage _ _ hchosen =>
      have hle := hanswered hstage hchosen
      exact ⟨hle, fun hhandler => nomatch hhandler⟩

theorem AskedOnce.call {x : Exchange (S × Nat) H} (h : x.AskedOnce) (c : Call) :
    (x.call (tallied select) c).2.AskedOnce := by
  cases c with
  | message frame => exact h.receipt (receive_receipt (tallied select) x frame)
  | startupSent =>
      by_cases hstage : x.stage = .init
      · rw [Exchange.call, startupSent, if_pos hstage]
        exact h.enter (by simp [hstage]) _
      · rw [Exchange.call, startupSent, if_neg hstage]
        exact h

theorem askedOnce_perform (chooser : S) (calls : List Call) :
    (perform (tallied select) (start (chooser, 0)) calls).2.AskedOnce := by
  induction calls using List.reverseRecOn with
  | nil => exact ⟨by simp [start], fun _ _ => rfl⟩
  | append_singleton calls c ih =>
      rw [perform_concat]
      exact ih.call c

/-! ## The laws of a run -/

/-- **What holds of every run**, for every way of choosing a mechanism, every mechanism, and every
order of calls.  The history is a record of allowed moves; the session is let in at most once and
opened at most once, and opened only right after it was let in; the caller is told so exactly then,
and is given a reply exactly when the exchange enters `responded`; a fault fails the exchange for
good; and the chooser is asked at most once. -/
theorem perform_lawful (select : S → AuthRequest → Except Fault H × S) (chooser : S)
    (calls : List Call) :
    let run := perform select (start chooser) calls
    let counted := perform (tallied select) (start (chooser, 0)) calls
    run.2.Recorded ∧
      (run.2.history.count .authenticated ≤ 1 ∧ run.2.history.count .ready ≤ 1) ∧
      (∀ earlier s later, run.2.history = earlier ++ s :: .ready :: later → s = .authenticated) ∧
      (run.1.countP isDone = run.2.history.count .ready ∧
        run.1.countP isSend = run.2.history.count .responded) ∧
      (∀ c, CallLaw run.2 c (run.2.call select c).1 (run.2.call select c).2) ∧
      counted.1 = run.1 ∧ counted.2.untallied = run.2 ∧ counted.2.chooser.2 ≤ 1 := by
  intro run counted
  have hrecorded : run.2.Recorded := recorded_perform select chooser calls
  have hcounted : run = counted.map id untallied :=
    perform_untallied select (start (chooser, 0)) calls
  refine ⟨hrecorded, ⟨?_, ?_⟩, ?_, countP_perform select chooser calls, ?_, ?_, ?_, ?_⟩
  · exact Stage.count_le_one_of_isChain (by decide) hrecorded.moves
  · exact Stage.count_le_one_of_isChain (by decide) hrecorded.moves
  · intro earlier s later hhistory
    have hmoves := hrecorded.moves
    rw [hhistory, List.isChain_append_cons_cons] at hmoves
    obtain ⟨-, hmove, -⟩ := hmoves
    cases hmove
    rfl
  · exact fun c => call_lawful select run.2 c
  · rw [hcounted]
    rfl
  · rw [hcounted]
    rfl
  · exact (askedOnce_perform chooser calls).le_one

end Exchange

end PgFrontend
