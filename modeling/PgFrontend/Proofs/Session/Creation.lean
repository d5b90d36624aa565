import PgFrontend.Proofs.Session.Attempts
/-!
# Creating a connection leaves no link behind

An attempt without a stop signal either never opens a link, or hands the open link out, or closes it
exactly once after the last transfer of its preparation.  The fault that the caller is told is the
one of the dialling or of the preparation, whatever comes of the closing, and a query that sets the
session up has its fault wrapped once.
-/

namespace PgFrontend.Factory

open Link

variable {c : Config} {nonce : String} {l : Link}

/-- How preparing a session over a link fails: while the session is opened, or in a query that sets
it up. -/
inductive PreparationFails (c : Config) (nonce : String) (l : Link) : Fault → Link → Prop
  | opening {fault : Fault} {l' : Link} (h : openSession c nonce l = .error (.fault fault) l') :
      PreparationFails c nonce l fault l'
  | settingUp {sql : String} {source : Fault} {l₁ l' : Link} (hquery : SetUpQuery c nonce l sql l₁)
      (h : Query.run sql l₁ = .error (.fault source) l') :
      PreparationFails c nonce l (.connect c.host c.port source) l'

theorem query_of_setUp {sql : String} {fault : Fault} {l' : Link}
    (h : setUp c sql l = .error (.fault fault) l') :
    ∃ source, fault = .connect c.host c.port source ∧
      Query.run sql l = .error (.fault source) l' := by
  cases hrun : Query.run sql l with
  | ok result l₁ => cases (setUp_of_ok hrun).symm.trans h
  | error halt l₁ =>
      cases halt with
      | waiting => cases (setUp_of_waiting hrun).symm.trans h
      | fault source =>
          cases (setUp_of_fault hrun).symm.trans h
          exact ⟨source, rfl, rfl⟩

theorem query_of_setUp_ok {sql : String} {result : QueryResult} {l' : Link}
    (h : setUp c sql l = .ok result l') : Query.run sql l = .ok result l' := by
  cases hrun : Query.run sql l with
  | ok result l₁ => exact (setUp_of_ok hrun).symm.trans h
  | error halt l₁ =>
      cases halt with
      | waiting => cases (setUp_of_waiting hrun).symm.trans h
      | fault source => cases (setUp_of_fault hrun).symm.trans h

theorem query_of_chooseSchema {fault : Fault} {l' : Link}
    (h : chooseSchema c l = .error (.fault fault) l') :
    ∃ schema source, c.schema = some schema ∧ fault = .connect c.host c.port source ∧
      Query.run (schemaStatement schema) l = .error (.fault source) l' := by
  unfold chooseSchema at h
  cases hschema : c.schema with
  | none =>
      rw [hschema] at h
      cases h
  | some schema =>
      rw [hschema] at h
      rcases bind_eq_error h with hset | ⟨_, _, _, hdone⟩
      · obtain ⟨source, hsource, hrun⟩ := query_of_setUp hset
        exact ⟨schema, source, rfl, hsource, hrun⟩
      · cases hdone

theorem prepare_fails {fault : Fault} {l' : Link}
    (h : prepare c nonce l = .error (.fault fault) l') : PreparationFails c nonce l fault l' := by
  rw [prepare_eq] at h
  rcases bind_eq_error h with hopening | ⟨outcome, l₁, hopened, h⟩
  · exact .opening hopening
  rcases bind_eq_error h with hprobe | ⟨result, l₂, hprobe, h⟩
  · obtain ⟨source, rfl, hrun⟩ := query_of_setUp hprobe
    exact .settingUp (.probe hopened) hrun
  rcases bind_eq_error h with hchoose | ⟨_, l₃, _, hdone⟩
  · obtain ⟨schema, source, hschema, rfl, hrun⟩ := query_of_chooseSchema hchoose
    exact .settingUp (.schema hopened (query_of_setUp_ok hprobe) hschema) hrun
  · cases hdone

/-- A fault over a link whose octets are pushed out by an ordinary transport wraps no other. -/
theorem source?_of_mayHalt {fault : Fault} (hflush : ∀ fault ∈ l.flushFault, fault.isIo = true)
    (h : l.MayHalt (·.isOfSession = true) (.fault fault)) : fault.source? = none := by
  rcases h with hsession | hpushed
  · cases fault with
    | connect host port source => cases hsession
    | _ => rfl
  · have hio := hflush fault hpushed
    cases fault with
    | io cause => rfl
    | _ => cases hio

theorem setUpQuery_moved {sql : String} {l₁ : Link} (h : SetUpQuery c nonce l sql l₁) :
    l.Moved l₁ := by
  cases h with
  | probe hopened => exact (openSession_resumable c nonce).steady.moved_of_ok hopened
  | schema hopened hprobed _ =>
      exact ((openSession_resumable c nonce).steady.moved_of_ok hopened).trans
        ((Query.run_resumable _).steady.moved_of_ok hprobed)

/-- The fault of the preparation is what the caller is told, after the link was closed. -/
theorem create_of_fault {d : Dial} {fault : Fault} {l₁ : Link} (h : Opens c d)
    (hprepare : prepare c nonce (dialled c l) = .error (.fault fault) l₁) :
    ∃ l', create c nonce d l = .error (.fault fault) l' ∧ l₁.ClosedOnce l' := by
  rw [create_of_opens h, establish_of_fault hprepare]
  exact closeWith_closedOnce fault l₁

theorem create_of_unopened (nonce : String) (l : Link) {d : Dial} (h : ¬Opens c d) :
    ∃ fault, create c nonce d l = .error (.fault fault) (dialled c l) ∧ DialFault c d fault := by
  obtain ⟨fault, hdial, hfault⟩ := dial_fails (l := l) h
  exact ⟨fault, bind_of_error hdial, hfault⟩

/-- What an attempt without a stop signal comes to. -/
inductive Creates (c : Config) (nonce : String) (d : Dial) (l : Link) :
    EStateM.Result Halt Link Connection → Prop
  | unopened {fault : Fault} (hopens : ¬Opens c d) (hfault : DialFault c d fault) :
      Creates c nonce d l (.error (.fault fault) (dialled c l))
  | handedOut {connection : Connection} {l₁ : Link} (hopens : Opens c d)
      (hprepare : prepare c nonce (dialled c l) = .ok connection l₁) :
      Creates c nonce d l (.ok connection l₁.free)
  | failed {fault : Fault} {l₁ l' : Link} (hopens : Opens c d)
      (hprepare : prepare c nonce (dialled c l) = .error (.fault fault) l₁)
      (hclosed : l₁.ClosedOnce l') : Creates c nonce d l (.error (.fault fault) l')
  | waiting {l₁ : Link} (hopens : Opens c d)
      (hprepare : prepare c nonce (dialled c l) = .error .waiting l₁) :
      Creates c nonce d l (.error .waiting l₁)

theorem creates_of_create {d : Dial} {r : EStateM.Result Halt Link Connection}
    (h : create c nonce d l = r) : Creates c nonce d l r := by
  subst h
  by_cases hopens : Opens c d
  · cases hprepare : prepare c nonce (dialled c l) with
    | ok connection l₁ =>
        rw [create_of_opens hopens, establish_of_ok hprepare]
        exact .handedOut hopens hprepare
    | error halt l₁ =>
        cases halt with
        | waiting =>
            rw [create_of_opens hopens, establish_of_waiting hprepare]
            exact .waiting hopens hprepare
        | fault fault =>
            obtain ⟨l', hcreate, hclosed⟩ := create_of_fault hopens hprepare
            rw [hcreate]
            exact .failed hopens hprepare hclosed
  · obtain ⟨fault, hcreate, hfault⟩ := create_of_unopened nonce l hopens
    rw [hcreate]
    exact .unopened hopens hfault

theorem create_handsOut {d : Dial} {connection : Connection} {l' : Link}
    (h : create c nonce d l = .ok connection l') : Opens c d ∧ (dialled c l).Transferred l' := by
  cases creates_of_create h with
  | handedOut hopens hprepare =>
      exact ⟨hopens, ((prepare_resumable c nonce).steady.moved_of_ok hprepare).transferred⟩

/-- Over a link on which the server says nothing, opening a session ends as the link does, after the
startup packet. -/
theorem openSession_unanswered (c : Config) (nonce : String) (ending : Ending) :
    openSession c nonce (dialled c { ending }) = .error ending.halt
      ((dialled c { ending }).written (StartupMessage.ofConfig c).encode) := by
  let packet := (StartupMessage.ofConfig c).encode
  let left := (dialled c { ending }).written packet
  have hwrite : transmit packet (dialled c { ending }) = .ok () left := rfl
  have hread : readFrame left = .error ending.halt left := rfl
  rw [openSession, Exchange.run, bind_of_ok hwrite]
  exact (converse_eq _ _ _).trans (bind_of_error hread)

/-- **Creating a connection never leaks its link and never closes it twice.**  Without a stop signal
and over a link that does not fall silent for ever, and on which a push that goes wrong is a fault
of the transfer: if dialling opens no link, nothing else is done,
and the fault is the connector's own or names the configured server; a failure after that closes the
link once, after the last transfer of the preparation, and is told as the preparation's fault; a
connection that is handed out was never closed; and the fault of opening the session is told as it
is, that of a query which sets it up inside one layer. -/
theorem create_closes_once (c : Config) (nonce : String) (d : Dial) (l : Link)
    (hfree : l.interruption = none) (hspeaks : l.ending ≠ .silent)
    (hflush : ∀ fault ∈ l.flushFault, fault.isIo = true) :
    (¬Opens c d → ∃ fault, create c nonce d l = .error (.fault fault) (dialled c l) ∧
        DialFault c d fault) ∧
      (Opens c d → ∀ halt l', create c nonce d l = .error halt l' →
        ∃ fault l₁, halt = .fault fault ∧ PreparationFails c nonce (dialled c l) fault l₁ ∧
          (dialled c l).Transferred l₁ ∧ l₁.ClosedOnce l') ∧
      (∀ connection l', create c nonce d l = .ok connection l' →
        Opens c d ∧ (dialled c l).Transferred l') ∧
      (Opens c d →
        (∀ fault l₁, openSession c nonce (dialled c l) = .error (.fault fault) l₁ →
          fault.source? = none ∧ ∃ l', create c nonce d l = .error (.fault fault) l') ∧
        ∀ sql l₁ fault l₂, SetUpQuery c nonce (dialled c l) sql l₁ →
          Query.run sql l₁ = .error (.fault fault) l₂ → fault.source? = none ∧
            ∃ l', create c nonce d l = .error (.fault (.connect c.host c.port fault)) l') := by
  have hsteady := (prepare_resumable c nonce).steady
  refine ⟨create_of_unopened nonce l, fun h halt l' hcreate => ?_,
    fun connection l' hcreate => create_handsOut hcreate, fun h => ⟨?_, ?_⟩⟩
  · cases creates_of_create hcreate with
    | unopened hopens => exact absurd h hopens
    | @failed fault l₁ _ hopens hprepare hclosed =>
        exact ⟨fault, l₁, rfl, prepare_fails hprepare,
          (hsteady.moved_of_error hprepare).transferred, hclosed⟩
    | waiting hopens hprepare =>
        rcases hsteady.mayHalt hprepare with hinterrupted | hsilent
        · exact absurd hfree hinterrupted
        · exact absurd hsilent hspeaks
  · intro fault l₁ hopening
    obtain ⟨l', htold, -⟩ := create_of_fault h (prepare_of_unopened hopening)
    have hhalt := (openSession_orderly c nonce).mayHalt hopening
    exact ⟨source?_of_mayHalt (l := dialled c l) hflush hhalt, l', htold⟩
  · intro sql l₁ fault l₂ hquery hrun
    obtain ⟨l', htold, -⟩ := create_of_fault h (prepare_of_query hquery hrun)
    have hhalt := (setUpQuery_moved hquery).mayHalt ((Query.run_orderly sql).mayHalt hrun)
    exact ⟨source?_of_mayHalt (l := dialled c l) hflush hhalt, l', htold⟩

/-- A server that closes its side at once: the attempt fails for that, and closes its own side. -/
theorem create_closes_once_unanswered :
    ∃ l₁ l', create {} "nonce" {} {} = .error (.fault (.io .earlyEnd)) l' ∧
      (dialled {} {}).Transferred l₁ ∧ l₁.ClosedOnce l' := by
  obtain ⟨-, hcloses, -, htold⟩ := create_closes_once {} "nonce" {} {} rfl (by decide) nofun
  have hopens : Opens {} {} := by decide
  have hopening := openSession_unanswered {} "nonce" .closed
  obtain ⟨-, l', hcreate⟩ := (htold hopens).1 _ _ hopening
  obtain ⟨fault, l₂, -, -, htransferred, hclosed⟩ := hcloses hopens _ l' hcreate
  exact ⟨l₂, l', hcreate, htransferred, hclosed⟩

end PgFrontend.Factory
