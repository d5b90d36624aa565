import PgFrontend.Proofs.Session.Creation
/-!
# Cancelling the creation of a connection

An attempt with a stop signal next to the attempt without one.  As long as the signal does not come
the two are the same.  When it comes first, the attempt is cancelled, and has by then done a
beginning of what the other attempt does over the same link.  The signal may come before the
attempt, while the server is dialled, or at any wait of a transfer.
-/

namespace PgFrontend.Factory

open Link

variable {c : Config} {nonce : String} {d : Dial} {l : Link}

/-- Whether the stop signal comes during an attempt if it still can: while the server is dialled, at
some wait of a transfer, or when the server falls silent. -/
def SignalComes (d : Dial) (l : Link) : Prop :=
  d.answer = .stopped ∨ l.interruption ≠ none ∨ l.ending = .silent

/-- Whether the stop signal is what ends an attempt to which it may come: it comes while the server
is dialled, or some transfer of the preparation is left waiting for it. -/
def SignalHeard (c : Config) (nonce : String) (d : Dial) (l : Link) : Prop :=
  StoppedDialling c d ∨
    Opens c d ∧ ∃ l₁, prepare c nonce (dialled c l) = .error .waiting l₁

theorem SignalHeard.comes (h : SignalHeard c nonce d l) : SignalComes d l := by
  rcases h with hstopped | ⟨-, l₁, hprepare⟩
  · exact .inl hstopped.1
  · exact .inr ((prepare_resumable c nonce).steady.mayHalt hprepare)

/-! ## Faults that are not a cancellation -/

theorem DialFault.ne_cancelled {fault : Fault} (h : DialFault c d fault) : fault ≠ .cancelled := by
  rintro rfl
  have hnamed : ∀ refusal, d.answer = .refused refusal →
      d.delay.ticks ≤ c.connectTimeout.ticks → refusal.isOfDialling = false := by
    intro refusal hanswer htime
    cases hkind : refusal.isOfDialling with
    | false => rfl
    | true =>
        have hown := h.own refusal hanswer htime hkind
        rw [← hown] at hkind
        cases hkind
  obtain ⟨reason, hreason⟩ := h.named hnamed
  cases hreason

theorem ne_cancelled_of_mayHalt {fault : Fault}
    (hflush : ∀ fault ∈ l.flushFault, fault.isIo = true)
    (h : l.MayHalt (·.isOfSession = true) (.fault fault)) : fault ≠ .cancelled := by
  rintro rfl
  rcases h with hsession | hpushed
  · cases hsession
  · cases hflush .cancelled hpushed

theorem PreparationFails.ne_cancelled {fault : Fault} {l' : Link}
    (hflush : ∀ fault ∈ l.flushFault, fault.isIo = true) (h : PreparationFails c nonce l fault l') :
    fault ≠ .cancelled := by
  cases h with
  | opening hopening =>
      exact ne_cancelled_of_mayHalt hflush ((openSession_orderly c nonce).mayHalt hopening)
  | settingUp => nofun

/-! ## The course of an attempt -/

theorem heed_of_ok {α : Type} {x : Wire α} {a : α} {l' : Link} (h : x l = .ok a l')
    (listening : Bool) : heed listening x l = .ok a l' := by
  rw [heed, h]

theorem heed_of_fault {α : Type} {x : Wire α} {fault : Fault} {l' : Link}
    (h : x l = .error (.fault fault) l') (listening : Bool) :
    heed listening x l = .error (.fault fault) l' := by
  rw [heed, h]

theorem heed_of_waiting {α : Type} {x : Wire α} {l' : Link} (h : x l = .error .waiting l') :
    heed true x l = .error (.fault .cancelled) l' := by
  rw [heed, h]
  rfl

theorem attempt_of_opens (h : Opens c d) (listening : Bool) :
    attempt c nonce d listening l = establish c nonce listening (dialled c l) :=
  bind_of_ok (heed_of_ok (dial_opens h listening) listening)

theorem attempt_of_refused {listening : Bool} {fault : Fault} {l₁ : Link}
    (h : dial c d listening l = .error (.fault fault) l₁) :
    attempt c nonce d listening l = .error (.fault fault) l₁ :=
  bind_of_error (heed_of_fault h listening)

theorem attempt_of_stopped (h : StoppedDialling c d) :
    attempt c nonce d true l = .error (.fault .cancelled) (dialled c l) :=
  bind_of_error (heed_of_waiting (dial_stopped h))

/-- Without listening, an attempt with a signal is an attempt without one. -/
theorem attempt_unlistened : attempt c nonce d false l = create c nonce d l := by
  by_cases hopens : Opens c d
  · rw [attempt_of_opens hopens, create_of_opens hopens]
  · obtain ⟨fault, hdial, -⟩ := dial_fails (l := l) hopens
    rw [attempt_of_refused hdial]
    exact (bind_of_error hdial).symm

/-- An attempt that the signal does not end is the attempt without one. -/
theorem attempt_of_unheard (h : ¬SignalHeard c nonce d l) :
    attempt c nonce d true l = create c nonce d l := by
  rw [← attempt_unlistened]
  by_cases hopens : Opens c d
  · rw [attempt_of_opens hopens, attempt_of_opens hopens]
    cases hprepare : prepare c nonce (dialled c l) with
    | ok connection l₁ => rw [establish_of_ok hprepare, establish_of_ok hprepare]
    | error halt l₁ =>
        cases halt with
        | waiting => exact absurd (.inr ⟨hopens, l₁, hprepare⟩) h
        | fault fault => rw [establish_of_fault hprepare, establish_of_fault hprepare]
  · obtain ⟨fault, hdial, -⟩ := dial_fails (l := l) hopens
    have hheard : dial c d true l = .error (.fault fault) (dialled c l) :=
      (dial_unstopped fun hstopped => h (.inl hstopped)).trans hdial
    rw [attempt_of_refused hheard, attempt_of_refused hdial]

/-- What a cancelled attempt leaves behind: only a server that was dialled, or a link that was
closed once, after the last transfer, and over which a beginning of what the attempt without the
signal sends was sent. -/
inductive LeftClean (c : Config) (nonce : String) (d : Dial) (l : Link) : Link → Prop
  | unopened (hopens : ¬Opens c d) : LeftClean c nonce d l (dialled c l)
  | closed {l₁ l' : Link} (hopens : Opens c d) (htransferred : (dialled c l).Transferred l₁)
      (hclosed : l₁.ClosedOnce l')
      (hsent : l₁.sent <+: (linkAfter (create c nonce d l.free)).sent) : LeftClean c nonce d l l'

theorem StoppedDialling.not_opens (h : StoppedDialling c d) : ¬Opens c d := by
  intro hopens
  cases h.1.symm.trans hopens.1

/-- An attempt that the signal ends is cancelled, whatever comes of closing its link. -/
theorem attempt_of_heard (h : SignalHeard c nonce d l) :
    ∃ l', attempt c nonce d true l = .error (.fault .cancelled) l' ∧ LeftClean c nonce d l l' := by
  rcases h with hstopped | ⟨hopens, l₁, hwaiting⟩
  · exact ⟨_, attempt_of_stopped hstopped, .unopened hstopped.not_opens⟩
  · have hprepare := prepare_resumable c nonce
    have hforetells := hprepare.foretells (dialled c l)
    rw [hwaiting, show (dialled c l).free = dialled c l.free from rfl] at hforetells
    obtain ⟨l', hclose, hclosed⟩ := closeWith_closedOnce (α := Connection) .cancelled l₁
    refine ⟨l', ?_, ?_⟩
    · rw [attempt_of_opens hopens, establish_of_waiting hwaiting]
      exact hclose
    · cases hforetells with
      | waiting hsent =>
          have hmoved := hprepare.steady.moved_of_error hwaiting
          exact .closed hopens hmoved.transferred hclosed
            (hsent.trans (sent_prepare_create hopens))

theorem create_ne_cancelled {l' : Link} (hflush : ∀ fault ∈ l.flushFault, fault.isIo = true) :
    create c nonce d l ≠ .error (.fault .cancelled) l' := by
  intro h
  cases creates_of_create h with
  | unopened hopens hfault => exact hfault.ne_cancelled rfl
  | failed hopens hprepare hclosed =>
      exact (prepare_fails hprepare).ne_cancelled (l := dialled c l) hflush rfl

/-- **Cancelling is clean.**  As long as the stop signal does not come, an attempt with it is the
attempt without it, to the last event.  It ends with a cancellation just when the signal was raised
before it or is heard during it, whatever comes of closing the link.  If the signal was raised
before, nothing is done at all; if it is heard while the server is dialled, nothing is closed; if it
is heard after that, the link is closed once, after the last transfer, and what was sent by then is
a beginning of what the attempt without the signal sends over the same link.  A connection that is
handed out was never closed. -/
theorem createUntil_cancels (c : Config) (nonce : String) (d : Dial) (signal : Signal) (l : Link)
    (hflush : ∀ fault ∈ l.flushFault, fault.isIo = true) :
    (signal = .dropped ∨ signal = .pending ∧ ¬SignalComes d l →
        createUntil c nonce d signal l = create c nonce d l) ∧
      ((∃ l', createUntil c nonce d signal l = .error (.fault .cancelled) l') ↔
        signal = .raised ∨ signal = .pending ∧ SignalHeard c nonce d l) ∧
      (SignalHeard c nonce d l → SignalComes d l) ∧
      (∀ l', createUntil c nonce d signal l = .error (.fault .cancelled) l' →
        signal = .raised ∧ l' = l ∨ signal = .pending ∧ LeftClean c nonce d l l') ∧
      ∀ connection l', createUntil c nonce d signal l = .ok connection l' →
        Opens c d ∧ (dialled c l).Transferred l' := by
  have hcreate (l' : Link) : create c nonce d l ≠ .error (.fault .cancelled) l' :=
    create_ne_cancelled hflush
  cases signal with
  | raised =>
      have hraised : createUntil c nonce d .raised l = .error (.fault .cancelled) l := rfl
      refine ⟨nofun, ⟨fun _ => .inl rfl, fun _ => ⟨l, hraised⟩⟩, SignalHeard.comes, ?_, ?_⟩
      · intro l' h
        cases hraised.symm.trans h
        exact .inl ⟨rfl, rfl⟩
      · intro connection l' h
        cases hraised.symm.trans h
  | dropped =>
      have hdropped : createUntil c nonce d .dropped l = create c nonce d l := attempt_unlistened
      rw [hdropped]
      refine ⟨fun _ => rfl, ⟨?_, nofun⟩, SignalHeard.comes, ?_, fun _ _ => create_handsOut⟩
      · rintro ⟨l', h⟩
        exact absurd h (hcreate l')
      · exact fun l' h => absurd h (hcreate l')
  | pending =>
      have hpending : createUntil c nonce d .pending l = attempt c nonce d true l := rfl
      rw [hpending]
      by_cases hheard : SignalHeard c nonce d l
      · obtain ⟨l₁, hcancelled, hclean⟩ := attempt_of_heard hheard
        refine ⟨?_, ⟨fun _ => .inr ⟨rfl, hheard⟩, fun _ => ⟨l₁, hcancelled⟩⟩, SignalHeard.comes,
          ?_, ?_⟩
        · rintro (hdropped | ⟨-, hquiet⟩)
          · cases hdropped
          · exact absurd hheard.comes hquiet
        · intro l' h
          cases hcancelled.symm.trans h
          exact .inr ⟨rfl, hclean⟩
        · intro connection l' h
          cases hcancelled.symm.trans h
      · rw [attempt_of_unheard hheard]
        refine ⟨fun _ => rfl, ⟨?_, ?_⟩, SignalHeard.comes, ?_, fun _ _ => create_handsOut⟩
        · rintro ⟨l', h⟩
          exact absurd h (hcreate l')
        · rintro (hraised | ⟨-, hheard'⟩)
          · cases hraised
          · exact absurd hheard' hheard
        · exact fun l' h => absurd h (hcreate l')

/-- A server that falls silent at once: the attempt is cancelled, and its link closed. -/
theorem createUntil_cancels_unanswered :
    ∃ l', createUntil {} "nonce" {} .pending { ending := .silent } =
        .error (.fault .cancelled) l' ∧
      LeftClean {} "nonce" {} { ending := .silent } l' := by
  obtain ⟨-, hcancelled, -, hclean, -⟩ :=
    createUntil_cancels {} "nonce" {} .pending { ending := .silent } nofun
  have hopening := openSession_unanswered {} "nonce" .silent
  have hheard : SignalHeard {} "nonce" {} { ending := .silent } :=
    .inr ⟨by decide, _, prepare_of_unopened hopening⟩
  obtain ⟨l', h⟩ := hcancelled.mpr (.inr ⟨rfl, hheard⟩)
  refine ⟨l', h, ?_⟩
  rcases hclean l' h with ⟨hraised, -⟩ | ⟨-, hleft⟩
  · cases hraised
  · exact hleft

end PgFrontend.Factory
