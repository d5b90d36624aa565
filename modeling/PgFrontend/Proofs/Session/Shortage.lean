import PgFrontend.Proofs.Session.Creation
import PgFrontend.Proofs.Wire.Truncation
/-!
# Attempts that run out of room

An attempt to create a connection over a link that takes only so many octets sends the beginning of
what it would send without a limit, up to the limit.  Where the limit cuts the preparation short,
the attempt fails for that, and closes the link once.
-/

namespace PgFrontend

open Link

theorem Query.run_curtailable (sql : String) : Curtailable (Query.run sql) :=
  (Curtailable.transmit _).bind fun _ => converse_curtailable rule {}

theorem Exchange.run_curtailable {S H : Type} [Authenticator H]
    (select : S → AuthRequest → Except Fault H × S) (x : Exchange S H) (startup : StartupMessage) :
    Curtailable (x.run select startup) := by
  refine (Curtailable.transmit _).bind fun _ => ?_
  split
  · exact converse_curtailable _ _
  next fault _ _ => exact .throw (.fault fault)

namespace Factory

variable {c : Config} {nonce : String} {d : Dial} {l : Link}

/-! ## The preparation -/

theorem setUp_curtailable (c : Config) (sql : String) : Curtailable (setUp c sql) := by
  have hrun := Query.run_curtailable sql
  refine ⟨fun l => (setUp_resumable c sql).steady.sent_mono l, fun {limit room cause l} h => ?_⟩
  have hcurtailed := hrun.curtailed h
  generalize hlimited : Query.run sql (l.withRoom (some room)) = r at hcurtailed
  generalize hwhole : Query.run sql l = r₀ at hcurtailed
  cases hcurtailed with
  | ok result hwithin =>
      rw [setUp_of_ok hlimited, setUp_of_ok hwhole]
      exact .ok result hwithin
  | error halt hwithin =>
      cases halt with
      | fault fault =>
          rw [setUp_of_fault hlimited, setUp_of_fault hwhole]
          exact .error _ hwithin
      | waiting =>
          rw [setUp_of_waiting hlimited, setUp_of_waiting hwhole]
          exact .error _ hwithin
  | cut hcause hfull hfree hsent hmore =>
      have hsame : linkAfter (setUp c sql l) = linkAfter r₀ := by
        rw [linkAfter_setUp, hwhole]
      rw [setUp_of_fault hlimited]
      rw [← hsame] at hsent hmore
      exact .cut hcause hfull hfree hsent hmore

theorem chooseSchema_curtailable (c : Config) : Curtailable (chooseSchema c) := by
  unfold chooseSchema
  split
  · exact .pure ()
  · exact (setUp_curtailable c _).bind fun _ => .pure ()

theorem openSession_curtailable (c : Config) (nonce : String) :
    Curtailable (openSession c nonce) := by
  unfold openSession
  exact Exchange.run_curtailable _ _ _

theorem prepare_curtailable (c : Config) (nonce : String) : Curtailable (prepare c nonce) := by
  rw [prepare_eq]
  exact (openSession_curtailable c nonce).bind fun outcome =>
    (setUp_curtailable c isolationProbe).bind fun result =>
      (chooseSchema_curtailable c).bind fun _ => .pure _

/-! ## The closing -/

/-- What an attempt sends after its preparation is cut off too, where the preparation was not cut
short, and there is nothing more of it where it was. -/
theorem sent_establish {limit : Nat} {cause : TransferCause} {l' : Link}
    (h : Curtailed limit cause (prepare c nonce l') (prepare c nonce l)) :
    (linkAfter (establish c nonce false l')).sent =
      (linkAfter (establish c nonce false l)).sent.take limit := by
  generalize hlimited : prepare c nonce l' = r at h
  generalize hwhole : prepare c nonce l = r₀ at h
  cases h with
  | ok connection hwithin =>
      rw [establish_of_ok hlimited, establish_of_ok hwhole]
      exact hwithin.sent_eq
  | @error halt l₁ room hwithin =>
      cases halt with
      | waiting =>
          rw [establish_of_waiting hlimited, establish_of_waiting hwhole]
          exact hwithin.sent_eq
      | fault fault =>
          have hclosed := (Curtailable.close.curtailed hwithin).sent_eq
          have hfree : (l₁.withRoom (some room)).free = l₁.withRoom (some room) :=
            free_eq hwithin.interruption_eq
          rw [establish_of_fault hlimited, establish_of_fault hwhole, closeWith_eq, closeWith_eq,
            hfree, free_eq hwithin.interruption_eq]
          exact hclosed
  | @cut fault l₁ _ _ hfull hfree hsent hmore =>
      have hlater := sent_prepare_establish c nonce l
      rw [hwhole] at hlater
      obtain ⟨later, hlater⟩ := hlater
      rw [establish_of_fault hlimited, closeWith_eq, free_eq hfree, ← hlater,
        List.take_append_of_le_length (Nat.le_of_lt hmore), ← hsent]
      exact Curtailable.close.sent_of_full hfull hfree

/-! ## The attempt -/

/-- **A limit to what can be written only truncates the transcript.**  Without a stop signal, an
attempt over a link that takes `limit` more octets sends exactly those that fit of all that it sends
over the same link without a limit, the farewell of a failed attempt among them.  Where the limit
cuts a write of the preparation short, the attempt fails with the fault of that write, and closes
the link once, after the last transfer of the preparation. -/
theorem create_truncates (c : Config) (nonce : String) (d : Dial) (l : Link) (limit : Nat)
    (hfree : l.interruption = none) :
    (linkAfter (create c nonce d (l.withRoom (some limit)))).sent =
        (linkAfter (create c nonce d (l.withRoom none))).sent.take (l.sent.length + limit) ∧
      (Opens c d →
        l.sent.length + limit <
          (linkAfter (prepare c nonce (dialled c (l.withRoom none)))).sent.length →
        ∃ fault l₁ l', create c nonce d (l.withRoom (some limit)) = .error (.fault fault) l' ∧
          fault.root = .io l.writeCause ∧
          (dialled c (l.withRoom (some limit))).Transferred l₁ ∧ l₁.ClosedOnce l') := by
  have hwithin : Within (l.sent.length + limit) l.writeCause limit
      (dialled c (l.withRoom none)) := by
    refine ⟨rfl, hfree, rfl, ?_⟩
    rw [sent_dialled, sent_withRoom]
  have hcurtailed := (prepare_curtailable c nonce).curtailed hwithin
  rw [show (dialled c (l.withRoom none)).withRoom (some limit) =
    dialled c (l.withRoom (some limit)) from rfl] at hcurtailed
  constructor
  · by_cases hopens : Opens c d
    · rw [create_of_opens hopens, create_of_opens hopens]
      exact sent_establish hcurtailed
    · obtain ⟨_, hlimited, -⟩ := create_of_unopened nonce (l.withRoom (some limit)) hopens
      obtain ⟨_, hwhole, -⟩ := create_of_unopened nonce (l.withRoom none) hopens
      rw [hlimited, hwhole]
      exact hwithin.sent_eq
  · intro hopens hmore
    generalize hlimited : prepare c nonce (dialled c (l.withRoom (some limit))) = r at hcurtailed
    generalize prepare c nonce (dialled c (l.withRoom none)) = r₀ at hcurtailed hmore
    have hfits {l₁ : Link} {room : Nat} (h : Within (l.sent.length + limit) l.writeCause room l₁)
        (hsent : (linkAfter r₀).sent = l₁.sent) : False := by
      rw [hsent, h.limit_eq] at hmore
      omega
    cases hcurtailed with
    | ok _ hwithin₁ => exact (hfits hwithin₁ rfl).elim
    | error _ hwithin₁ => exact (hfits hwithin₁ rfl).elim
    | @cut fault l₁ _ hcause _ _ _ _ =>
        obtain ⟨l', hcreate, hclosed⟩ := create_of_fault hopens hlimited
        have hmoved := (prepare_resumable c nonce).steady.moved_of_error hlimited
        exact ⟨fault, l₁, l', hcreate, hcause, hmoved.transferred, hclosed⟩

/-- A link that takes no more than the beginning of the startup packet. -/
theorem create_truncates_startup :
    ∃ fault l₁ l', create {} "nonce" {} { room := some 3 } = .error (.fault fault) l' ∧
      fault.root = .io .noRoom ∧ l'.sent = (StartupMessage.ofConfig {}).encode.take 3 ∧
      (dialled {} { room := some 3 }).Transferred l₁ ∧ l₁.ClosedOnce l' := by
  let packet := (StartupMessage.ofConfig {}).encode
  have hlong : 3 < packet.length := by decide
  have hopens : Opens {} {} := by decide
  have hprepare : prepare {} "nonce" (dialled {} {}) =
      .error (.fault (.io .earlyEnd)) ((dialled {} {}).written packet) :=
    prepare_of_unopened (openSession_unanswered {} "nonce" .closed)
  have hsent : (linkAfter (prepare {} "nonce" (dialled {} {}))).sent = packet := by
    rw [hprepare]
    exact (sent_written_whole rfl).trans (congrArg (· ++ packet) (sent_dialled {} {}))
  have hlater : (linkAfter (prepare {} "nonce" (dialled {} {}))).sent <+:
      (linkAfter (create {} "nonce" {} {})).sent := sent_prepare_create hopens
  obtain ⟨htruncated, hcut⟩ := create_truncates {} "nonce" {} {} 3 rfl
  have hmore : 3 < (linkAfter (prepare {} "nonce" (dialled {} {}))).sent.length := by
    rwa [hsent]
  obtain ⟨fault, l₁, l', hcreate, hcause, htransferred, hclosed⟩ := hcut hopens hmore
  refine ⟨fault, l₁, l', hcreate, hcause, ?_, htransferred, hclosed⟩
  rw [hcreate] at htruncated
  rw [hsent] at hlater
  obtain ⟨later, hlater⟩ := hlater
  calc
    l'.sent = (linkAfter (create {} "nonce" {} {})).sent.take 3 := htruncated
    _ = (packet ++ later).take 3 := by rw [hlater]
    _ = packet.take 3 := List.take_append_of_le_length (Nat.le_of_lt hlong)

end Factory

end PgFrontend
