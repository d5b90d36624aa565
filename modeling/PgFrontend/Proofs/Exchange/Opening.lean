import PgFrontend.Proofs.Exchange.Authentication
import PgFrontend.Proofs.Wire.Following
/-!
# Opening a session, with and without a link

An exchange that is run over a link does what the calls do that are made on it without any: one
after the startup packet, and one for each frame that the server's stream decodes to, up to the
first of them that says that the exchange is done or that fails.  `follow_rule` ties the rule of
the conversation to the calls, and `run_refines_calls` says where each of the ends is.
-/

namespace PgFrontend.Exchange

open Link

variable {S H : Type} [Authenticator H] (select : S → AuthRequest → Except Fault H × S)

/-- Whether an exchange goes on after a call. -/
def goesOn : Except Fault (Option Step) → Bool
  | .ok (some .done) => false
  | .ok _ => true
  | .error _ => false

/-- The calls that are made on a fresh exchange over some frames: their results, and the exchange
after them. -/
def called (chooser : S) (frames : List Frame) :
    List (Except Fault (Option Step)) × Exchange S H :=
  perform select (start chooser) (.startupSent :: frames.map .message)

/-- Whether the exchange goes on after each of the calls that are made over some frames. -/
def GoesOn (chooser : S) (frames : List Frame) : Prop :=
  ∀ r ∈ (called select chooser frames).1, goesOn r = true

/-- The replies of the exchange to some frames, as they are sent. -/
def replies (chooser : S) (frames : List Frame) : Octets :=
  (said (called select chooser frames).1).flatMap ClientMessage.encode

theorem called_append (chooser : S) (frames more : List Frame) :
    called select chooser (frames ++ more) =
      ((called select chooser frames).1 ++
          ((called select chooser frames).2.perform select (more.map .message)).1,
        ((called select chooser frames).2.perform select (more.map .message)).2) := by
  rw [called, List.map_append, ← List.cons_append, perform_append]
  rfl

theorem length_replies_le (chooser : S) (frames more : List Frame) :
    (replies select chooser frames).length ≤ (replies select chooser (frames ++ more)).length := by
  rw [replies, replies, called_append, said, said, List.filterMap_append, List.flatMap_append,
    List.length_append]
  exact Nat.le_add_right _ _

theorem goesOn_concat_iff (chooser : S) (frames : List Frame) (f : Frame) :
    GoesOn select chooser (frames ++ [f]) ↔ GoesOn select chooser frames ∧
      goesOn (((called select chooser frames).2.receive select f).1.map some) = true := by
  rw [GoesOn, called_append, List.forall_mem_append]
  exact and_congr_right fun _ => List.forall_mem_singleton

/-- The exchange goes on to the end of some frames, or ends at one of them. -/
theorem goesOn_or_ends (chooser : S) (frames : List Frame) :
    GoesOn select chooser frames ∨
      ∃ before f after, frames = before ++ f :: after ∧ GoesOn select chooser before ∧
        goesOn (((called select chooser before).2.receive select f).1.map some) = false := by
  induction frames using List.reverseRecOn with
  | nil =>
      left
      intro r hr
      rw [List.mem_singleton.mp hr]
      rfl
  | append_singleton frames f ih =>
      rcases ih with hgoes | ⟨before, g, after, rfl, hgoes, hends⟩
      · cases hends : goesOn (((called select chooser frames).2.receive select f).1.map some) with
        | true => exact .inl ((goesOn_concat_iff select chooser frames f).mpr ⟨hgoes, hends⟩)
        | false => exact .inr ⟨frames, f, [], rfl, hgoes, hends⟩
      · refine .inr ⟨before, g, after ++ [f], ?_, hgoes, hends⟩
        rw [List.append_assoc, List.cons_append]

/-! ## The rule of the conversation and the calls -/

theorem rule_of_done {x : Exchange S H} {f : Frame} (h : (x.receive select f).1 = .ok .done) :
    rule select x f = .done (x.receive select f).2.outcome := by
  rw [rule]
  generalize x.receive select f = received at h ⊢
  obtain ⟨result, next⟩ := received
  cases h
  rfl

theorem rule_of_error {x : Exchange S H} {f : Frame} {fault : Fault}
    (h : (x.receive select f).1 = .error fault) : rule select x f = .fail fault := by
  rw [rule]
  generalize x.receive select f = received at h ⊢
  obtain ⟨result, next⟩ := received
  cases h
  rfl

/-- As long as no call ends the exchange, the rule leads where the calls lead. -/
theorem follow_rule (x : Exchange S H) (frames : List Frame)
    (h : ∀ r ∈ (x.perform select (frames.map .message)).1, goesOn r = true) :
    follow (rule select) x frames =
      some ((x.perform select (frames.map .message)).2,
        said (x.perform select (frames.map .message)).1) := by
  induction frames generalizing x with
  | nil => rfl
  | cons f frames ih =>
      rw [List.map_cons, perform] at h ⊢
      obtain ⟨hfirst, hlater⟩ := List.forall_mem_cons.mp h
      have hcall : x.call select (.message f) =
          ((x.receive select f).1.map some, (x.receive select f).2) := rfl
      rw [hcall] at hfirst hlater ⊢
      have hrest := ih (x.receive select f).2 hlater
      rw [follow, rule]
      generalize x.receive select f = received at hfirst hrest ⊢
      obtain ⟨fault | step, next⟩ := received
      · cases hfirst
      · cases step with
        | send reply =>
            dsimp only at hrest ⊢
            rw [hrest]
            rfl
        | wait => exact hrest
        | done => cases hfirst

/-- The rule leads on only as long as no call ends the exchange. -/
theorem goesOn_of_follow {x last : Exchange S H} {frames : List Frame}
    {replies : List ClientMessage} (h : follow (rule select) x frames = some (last, replies)) :
    ∀ r ∈ (x.perform select (frames.map .message)).1, goesOn r = true := by
  induction frames generalizing x replies with
  | nil => nofun
  | cons f frames ih =>
      rw [List.map_cons, perform]
      have hcall : x.call select (.message f) =
          ((x.receive select f).1.map some, (x.receive select f).2) := rfl
      rw [hcall]
      rw [follow, rule] at h
      generalize x.receive select f = received at h ⊢
      obtain ⟨fault | step, next⟩ := received
      · cases h
      · cases step with
        | send reply =>
            obtain ⟨⟨_, more⟩, hfollow, hsame⟩ := Option.map_eq_some_iff.mp h
            cases hsame
            exact List.forall_mem_cons.mpr ⟨rfl, ih hfollow⟩
        | wait => exact List.forall_mem_cons.mpr ⟨rfl, ih h⟩
        | done => cases h

theorem rule_eq_done {x : Exchange S H} {f : Frame} {outcome : Outcome}
    (h : rule select x f = .done outcome) :
    (x.receive select f).1 = .ok .done ∧ (x.receive select f).2.outcome = outcome := by
  rw [rule] at h
  generalize x.receive select f = received at h ⊢
  obtain ⟨fault | step, next⟩ := received
  · cases h
  · cases step with
    | send reply => cases h
    | wait => cases h
    | done =>
        cases h
        exact ⟨rfl, rfl⟩

/-- An exchange does not go on after an error report, nor after the server's readiness. -/
theorem kind_of_goesOn (x : Exchange S H) (f : Frame)
    (h : goesOn ((x.receive select f).1.map some) = true) : f.kind ≠ 'E' ∧ f.kind ≠ 'Z' := by
  have hreceipt := receive_receipt select x f
  generalize x.receive select f = received at hreceipt h
  obtain ⟨result, next⟩ := received
  have hrequested {request : Except Fault AuthRequest} (hrequest : f.request? = some request) :
      f.kind ≠ 'E' ∧ f.kind ≠ 'Z' := by
    rw [Frame.kind_of_request? hrequest]
    decide
  cases hreceipt with
  | noted outcome _ hnotes =>
      cases hnotes with
      | parameter _ hkind _ => rw [hkind]; decide
      | key _ hkind _ => rw [hkind]; decide
      | passed hkind =>
          constructor
          · exact fun hE => hkind (by simp [hE])
          · exact fun hZ => hkind (by simp [hZ])
  | admitted _ hrequest _ => exact hrequested hrequest
  | replied _ _ _ _ _ _ hrequest _ _ _ => exact hrequested hrequest
  | silent _ _ _ _ _ hrequest _ _ _ => exact hrequested hrequest
  | _ => cases h

theorem kind_of_goesOn_mem {chooser : S} {frames : List Frame} (h : GoesOn select chooser frames) :
    ∀ f ∈ frames, f.kind ≠ 'E' ∧ f.kind ≠ 'Z' := by
  induction frames using List.reverseRecOn with
  | nil => nofun
  | append_singleton frames f ih =>
      obtain ⟨hbefore, hlast⟩ := (goesOn_concat_iff select chooser frames f).mp h
      exact List.forall_mem_append.mpr
        ⟨ih hbefore, List.forall_mem_singleton.mpr (kind_of_goesOn select _ f hlast)⟩

/-- As long as no call ends the exchange, the conversation gets where the calls get. -/
theorem run_reaches {chooser : S} {startup : StartupMessage} {frames : List Frame} {r : Octets}
    {l : Link} {size : Nat} (hgoes : GoesOn select chooser frames) (hfits : ∀ f ∈ frames, f.Fits)
    (hopen : l.Open ((startup.encode ++ replies select chooser frames).length + size))
    (hunread : l.unread = frames.flatMap Frame.encode ++ r) :
    ∃ l', run select (start chooser) startup l =
        converse (rule select) (called select chooser frames).2 l' ∧
      Passed (frames.flatMap Frame.encode) (startup.encode ++ replies select chooser frames) l l' ∧
      l'.Open size := by
  rw [List.length_append, Nat.add_assoc] at hopen
  obtain ⟨l₁, hwrite, hwrote, hopen₁⟩ := transmit_passed startup.encode hopen
  have hrun : run select (start chooser) startup l =
      converse (rule select) ((start chooser).enter .startupSent) l₁ := bind_of_ok hwrite
  have hlater := (List.forall_mem_cons.mp hgoes).2
  obtain ⟨l', hconverse, hpassed, hopen'⟩ :=
    converse_follow (follow_rule select ((start chooser).enter .startupSent) frames hlater) hfits
      hopen₁ (hwrote.unread_of_append hunread)
  exact ⟨l', hrun.trans hconverse, hwrote.trans hpassed, hopen'⟩

def admission : Frame :=
  ⟨82, [0, 0, 0, 0]⟩

def readiness : Frame :=
  ⟨90, [73]⟩

/-- **The exchange over a link refines the exchange without one.**  Over a link to which everything
can be written, and whose other side is closed after a stream that decodes to `frames`, an exchange
is done, fails, or runs out of frames, just as the calls do that are made on it without the link:
it ends at the first of them that does not go on, with the outcome or the fault of that call, and
otherwise with the fault of decoding what follows the frames.  The frames up to that end are taken
off the stream, and the startup packet and the replies to them are all that is sent. -/
theorem run_refines_calls (chooser : S) (startup : StartupMessage) (l : Link)
    {frames : List Frame} {torn : Fault} (hstream : Frame.decodeAll l.unread = (frames, torn))
    (hclosed : l.ending = .closed)
    (hopen : l.Open (startup.encode ++ replies select chooser frames).length) :
    (∀ before f after, frames = before ++ f :: after → GoesOn select chooser before →
        ∃ l', Passed ((before ++ [f]).flatMap Frame.encode)
            (startup.encode ++ replies select chooser before) l l' ∧
          (((called select chooser before).2.receive select f).1 = .ok .done →
            run select (start chooser) startup l =
              .ok ((called select chooser before).2.receive select f).2.outcome l') ∧
          ∀ fault, ((called select chooser before).2.receive select f).1 = .error fault →
            run select (start chooser) startup l = .error (.fault fault) l') ∧
      (GoesOn select chooser frames →
        ∃ taken l', run select (start chooser) startup l = .error (.fault torn) l' ∧
          Passed (frames.flatMap Frame.encode ++ taken)
            (startup.encode ++ replies select chooser frames) l l') ∧
      (GoesOn select chooser frames ∨
        ∃ before f after, frames = before ++ f :: after ∧ GoesOn select chooser before ∧
          goesOn (((called select chooser before).2.receive select f).1.map some) = false) := by
  obtain ⟨hfits, tail, hunread, htail⟩ := Frame.decodeAll_eq hstream
  refine ⟨?_, ?_, goesOn_or_ends select chooser frames⟩
  · intro before f after hsplit hgoes
    subst hsplit
    have hfits' := List.forall_mem_append.mp hfits
    have hroom : l.Open ((startup.encode ++ replies select chooser before).length + 0) := by
      refine hopen.mono ?_
      rw [List.length_append, List.length_append]
      exact Nat.add_le_add_left (length_replies_le select chooser before _) _
    rw [List.flatMap_append, List.flatMap_cons, List.append_assoc, List.append_assoc] at hunread
    obtain ⟨l₁, hrun, hpassed, hopen₁⟩ := run_reaches select hgoes hfits'.1 hroom hunread
    obtain ⟨l', hlast, hdone, hfails⟩ :=
      converse_last (rule select) (called select chooser before).2
        (List.forall_mem_cons.mp hfits'.2).1 (hpassed.unread_of_append hunread)
        hopen₁.interruption_eq
    refine ⟨l', ?_, fun h => ?_, fun fault h => ?_⟩
    · have hboth := hpassed.trans hlast
      rwa [List.append_nil, ← List.flatMap_singleton Frame.encode f, ← List.flatMap_append] at hboth
    · exact hrun.trans (hdone _ (rule_of_done select h))
    · exact hrun.trans (hfails fault (rule_of_error select h))
  · intro hgoes
    have hroom : l.Open ((startup.encode ++ replies select chooser frames).length + 0) := hopen
    obtain ⟨l₁, hrun, hpassed, hopen₁⟩ := run_reaches select hgoes hfits hroom hunread
    have hrest : l₁.unread = tail := hpassed.unread_of_append hunread
    obtain ⟨taken, l', htorn, hpassed'⟩ := converse_torn (rule select)
      (called select chooser frames).2 (hpassed.ending_eq.trans hclosed)
      hopen₁.interruption_eq (hrest ▸ htail)
    have hboth := hpassed.trans hpassed'
    rw [List.append_nil] at hboth
    exact ⟨taken, l', hrun.trans htorn, hboth⟩

/-- A server that lets the client in without asking for anything, and that goes on after that. -/
theorem run_refines_calls_trusting :
    let l : Link := { arrived := [[82, 0, 0], [], [0, 8, 0, 0, 0, 0, 90, 0], [0, 0, 5, 73, 90]] }
    ∃ l', run (Factory.select "nonce") (start ⟨"user", "pencil"⟩) ⟨"user", "data", "", []⟩ l =
        .ok {} l' ∧ l'.unread = [90] := by
  intro l
  have hunread : l.unread = [admission, readiness].flatMap Frame.encode ++ [90] := rfl
  have hstream : Frame.decodeAll l.unread = ([admission, readiness], .io .earlyEnd) := by
    rw [hunread]
    exact Frame.decodeAll_flatMap (by decide) rfl
  obtain ⟨hends, -, -⟩ := run_refines_calls (Factory.select "nonce") ⟨"user", "pencil"⟩
    ⟨"user", "data", "", []⟩ l hstream rfl (.of_unlimited rfl rfl rfl _)
  have hresults : (called (Factory.select "nonce") ⟨"user", "pencil"⟩ [admission]).1 =
      [.ok none, .ok (some .wait)] := rfl
  have hgoes : GoesOn (Factory.select "nonce") ⟨"user", "pencil"⟩ [admission] := by
    rw [GoesOn, hresults]
    decide
  obtain ⟨l', hpassed, hdone, -⟩ := hends [admission] readiness [] rfl hgoes
  exact ⟨l', hdone rfl, hpassed.unread_of_append hunread⟩

end PgFrontend.Exchange
