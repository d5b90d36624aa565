import PgFrontend.Proofs.Exchange.Opening
import PgFrontend.Proofs.Session.Creation
import PgFrontend.Proofs.Session.Queries
/-!
# The transcript of an attempt that succeeds

What the client and the server have said to each other when an attempt hands a connection out.  The
server's part is a `Welcome`, and then one segment for each query that sets the session up; the
client's part is the startup packet, its replies, and those queries.  Each part of an attempt is
inverted once, from its success to what was read and sent.
-/

namespace PgFrontend

open Octets Link

/-! ## Answers that have been read -/

namespace Query

theorem length_of_addRow {p q : Progress} {values : List (Option Octets)}
    (h : p.addRow values = .ok q) : values.length = p.columns.length := by
  unfold Progress.addRow at h
  split at h
  next hlength => exact hlength
  · cases h

/-- A frame that adds to what is known is one that the reading goes on after. -/
theorem answering_of_take {frames : List Frame} {f : Frame} {p : Progress} (h : Answering frames)
    (hunready : f.kind ≠ 'Z') (htake : (known frames).take f = .ok p) :
    Answering (frames ++ [f]) := by
  have hkind (letter : Char) (hletter : f.kind = letter) : Char.ofNat f.tag.toNat = letter :=
    hletter
  unfold Progress.take at htake
  refine h.concat hunready (fun hdescription => ?_) (fun hfinished => ?_) fun hrow => ?_
  · rw [hkind _ hdescription] at htake
    obtain ⟨columns, hparse, -⟩ := map_eq_ok_iff.mp htake
    exact ⟨columns, hparse⟩
  · rw [hkind _ hfinished] at htake
    obtain ⟨tag, hparse, -⟩ := map_eq_ok_iff.mp htake
    exact ⟨tag, hparse⟩
  · rw [hkind _ hrow] at htake
    obtain ⟨values, hparse, hadd⟩ := bind_eq_ok_iff.mp htake
    exact ⟨values, hparse, length_of_addRow hadd⟩

theorem take_of_rule {p next : Progress} {f : Frame} (h : rule p f = .wait next) :
    f.kind ≠ 'Z' ∧ p.take f = .ok next := by
  cases turns_of_rule h with
  | wait hunready _ =>
      refine ⟨hunready, ?_⟩
      rw [rule, if_neg (hunready ∘ (tag_eq_readyTag_iff f).mp)] at h
      cases htake : p.take f with
      | ok taken =>
          rw [htake] at h
          cases h
          rfl
      | error fault =>
          rw [htake] at h
          cases h

/-- The rule leads on only over frames that the reading of an answer goes on after, and to what is
known after them; it replies to none. -/
theorem answering_of_follow {frames more : List Frame} {last : Progress}
    {replies : List ClientMessage} (h : Answering frames)
    (hfollow : follow rule (known frames) more = some (last, replies)) :
    Answering (frames ++ more) ∧ last = known (frames ++ more) ∧ replies = [] := by
  induction more generalizing frames with
  | nil =>
      cases hfollow
      rw [List.append_nil]
      exact ⟨h, rfl, rfl⟩
  | cons f more ih =>
      rw [follow] at hfollow
      cases hrule : rule (known frames) f with
      | wait next =>
          rw [hrule] at hfollow
          obtain ⟨hunready, htake⟩ := take_of_rule hrule
          have hanswering := answering_of_take h hunready htake
          cases htake.symm.trans (take_concat hanswering)
          have hlater := ih hanswering hfollow
          rwa [List.append_assoc, List.singleton_append] at hlater
      | send reply next => cases turns_of_rule hrule
      | done result =>
          rw [hrule] at hfollow
          cases hfollow
      | fail fault =>
          rw [hrule] at hfollow
          cases hfollow

end Query

namespace Segment

def frames (s : Segment) : List Frame :=
  s.body ++ [s.ready]

theorem encode_eq (s : Segment) : s.encode = s.frames.flatMap Frame.encode := by
  rw [encode, frames, List.flatMap_append, List.flatMap_singleton]

/-- The query that a segment answers has a result just if no frame of the segment is a report. -/
theorem outcome_eq_ok_iff (s : Segment) :
    (∃ result, s.outcome = .ok result) ↔ ∀ f ∈ s.frames, f.kind ≠ 'E' := by
  have hready : s.ready.kind ≠ 'E' := by
    rw [s.ready_kind]
    decide
  have hnone : Query.firstError s.body = none ↔ ∀ f ∈ s.body, f.kind ≠ 'E' := by
    rw [Query.firstError, List.findSome?_eq_none_iff]
    refine forall₂_congr fun f _ => ?_
    rw [Frame.report?]
    split <;> simp_all
  rw [frames, List.forall_mem_append, List.forall_mem_singleton, and_iff_left hready, ← hnone,
    outcome]
  cases Query.firstError s.body with
  | none => simp
  | some fault => simp

end Segment

namespace Query

variable {sql : String} {l l' : Link}

theorem run_eq_ok {result : QueryResult} (hfree : l.interruption = none)
    (h : run sql l = .ok result l') :
    ∃ s : Segment, s.outcome = .ok result ∧ Passed s.encode (asked sql) l l' ∧
      l'.interruption = none := by
  obtain ⟨_, l₁, htransmit, hconverse⟩ := bind_eq_ok h
  obtain ⟨hwrote, hfree₁⟩ := transmit_eq_ok hfree htransmit
  obtain ⟨frames, f, last, replies, hfollow, hdone, hfits, hpassed, hfree'⟩ :=
    converse_eq_ok hfree₁ hconverse
  have hknown : follow rule (known []) frames = some (last, replies) := hfollow
  obtain ⟨hanswering, rfl, rfl⟩ := answering_of_follow answering_nil hknown
  cases turns_of_rule hdone with
  | done hready hnoted =>
      have hnone : firstError frames = none := hnoted
      let s : Segment := ⟨frames, f, hanswering, hready, hfits⟩
      refine ⟨s, ?_, ?_, hfree'⟩
      · rw [Segment.outcome, show s.body = frames from rfl, hnone]
        rfl
      · have hboth := hwrote.trans hpassed
        rw [List.flatMap_nil, List.append_nil] at hboth
        rwa [s.encode_eq]

theorem run_of_segment {s : Segment} {result : QueryResult} {r : Octets} {size : Nat}
    (hresult : s.outcome = .ok result) (hopen : l.Open ((asked sql).length + size))
    (hunread : l.unread = s.encode ++ r) :
    ∃ l', run sql l = .ok result l' ∧ l'.unread = r ∧ l'.Open size := by
  obtain ⟨l', hask, hunread', -, -, hopen'⟩ := ask_segment sql hopen hunread
  refine ⟨l', ?_, hunread', hopen'⟩
  rw [ask, hresult] at hask
  cases hrun : run sql l with
  | ok found l₁ =>
      rw [hrun] at hask
      cases hask
      rfl
  | error halt l₁ =>
      rw [hrun] at hask
      cases hask

end Query

namespace Factory

open Exchange (called GoesOn)

variable {c : Config} {nonce : String} {d : Dial} {l l' : Link}

/-! ## The opening of a session -/

/-- Who a configuration says that the client is. -/
def credentials (c : Config) : Credentials :=
  ⟨c.user, c.password⟩

/-- The frames with which a server opens a session.  The exchange accepts one of them as the word
that the client is let in, and the first one after it that says that the server is ready is the
last; there is none that says so before. -/
structure Welcome (c : Config) (nonce : String) where
  before : List Frame
  admission : Frame
  between : List Frame
  ready : Frame
  goesOn : GoesOn (select nonce) (credentials c) (before ++ admission :: between)
  unadmitted : .authenticated ∉ (called (select nonce) (credentials c) before).2.history
  admission_request : admission.request? = some (.ok .ok)
  admitted :
    (called (select nonce) (credentials c) (before ++ [admission])).2.stage = .authenticated
  unready : ∀ f ∈ before ++ admission :: between, f.kind ≠ 'Z'
  ready_kind : ready.kind = 'Z'
  done : ((called (select nonce) (credentials c) (before ++ admission :: between)).2.receive
    (select nonce) ready).1 = .ok .done
  fits : ∀ f ∈ (before ++ admission :: between) ++ [ready], f.Fits

namespace Welcome

variable (w : Welcome c nonce)

/-- All frames but the last. -/
def opening : List Frame :=
  w.before ++ w.admission :: w.between

def frames : List Frame :=
  w.opening ++ [w.ready]

def encode : Octets :=
  w.frames.flatMap Frame.encode

/-- What the exchange replies, as it is sent. -/
def replies : Octets :=
  Exchange.replies (select nonce) (credentials c) w.opening

/-- What the exchange holds once it is done. -/
def outcome : Outcome :=
  ((called (select nonce) (credentials c) w.opening).2.receive (select nonce) w.ready).2.outcome

theorem unreported : ∀ f ∈ w.frames, f.kind ≠ 'E' := by
  refine List.forall_mem_append.mpr ⟨fun f hf => ?_, List.forall_mem_singleton.mpr ?_⟩
  · exact (Exchange.kind_of_goesOn_mem (select nonce) w.goesOn f hf).1
  · rw [w.ready_kind]
    decide

end Welcome

/-- An exchange that is done with a frame was opened by a welcome that ends with that frame. -/
theorem exists_welcome {opening : List Frame} {ready : Frame}
    (hgoes : GoesOn (select nonce) (credentials c) opening)
    (hdone : ((called (select nonce) (credentials c) opening).2.receive (select nonce) ready).1 =
      .ok .done)
    (hfits : ∀ f ∈ opening ++ [ready], f.Fits) :
    ∃ w : Welcome c nonce, w.opening = opening ∧ w.ready = ready := by
  have hreceipt := Exchange.receive_receipt (select nonce)
    (called (select nonce) (credentials c) opening).2 ready
  have hstage : (called (select nonce) (credentials c) opening).2.stage = .authenticated ∧
      ready.kind = 'Z' := by
    rw [hdone] at hreceipt
    generalize ((called (select nonce) (credentials c) opening).2.receive (select nonce) ready).2 =
      next at hreceipt
    cases hreceipt with
    | opened hstage hkind => exact ⟨hstage, hkind⟩
  have hrecorded := Exchange.recorded_opened (credentials c) nonce opening
  -- The exchange was let in at last, so one of the frames did that.
  have hentered : .authenticated ∈ (Exchange.opened (credentials c) nonce opening).2.history :=
    List.mem_of_getLast? (hstage.1 ▸ hrecorded.ends)
  obtain ⟨before, admission, between, rfl, hadmission, -⟩ := Exchange.exists_admission hentered
  have hentered := hadmission.entered
  rw [Exchange.opened_concat] at hentered
  obtain ⟨-, hrequest, -, -, hnext⟩ := (Exchange.receive_receipt (select nonce) _ admission).admits
    hadmission.not_before hentered
  have hadmitted : (called (select nonce) (credentials c) (before ++ [admission])).2.stage =
      .authenticated := by
    rw [show called (select nonce) (credentials c) (before ++ [admission]) =
      Exchange.opened (credentials c) nonce (before ++ [admission]) from rfl,
      Exchange.opened_concat, hnext]
    rfl
  refine ⟨⟨before, admission, between, ready, hgoes, hadmission.not_before, hrequest, hadmitted,
    fun f hf => ?_, hstage.2, hdone, hfits⟩, rfl, rfl⟩
  exact (Exchange.kind_of_goesOn_mem (select nonce) hgoes f hf).2

theorem openSession_eq_ok {outcome : Outcome} (hfree : l.interruption = none)
    (h : openSession c nonce l = .ok outcome l') :
    ∃ w : Welcome c nonce, w.outcome = outcome ∧
      Passed w.encode ((StartupMessage.ofConfig c).encode ++ w.replies) l l' ∧
      l'.interruption = none := by
  obtain ⟨_, l₁, htransmit, hconverse⟩ := bind_eq_ok h
  obtain ⟨hwrote, hfree₁⟩ := transmit_eq_ok hfree htransmit
  obtain ⟨opening, ready, last, replies, hfollow, hdone, hfits, hpassed, hfree'⟩ :=
    converse_eq_ok hfree₁ hconverse
  have hlater := Exchange.goesOn_of_follow (select nonce) hfollow
  have hgoes : GoesOn (select nonce) (credentials c) opening :=
    List.forall_mem_cons.mpr ⟨rfl, hlater⟩
  cases (Exchange.follow_rule (select nonce) _ _ hlater).symm.trans hfollow
  obtain ⟨hended, houtcome⟩ := Exchange.rule_eq_done (select nonce) hdone
  obtain ⟨w, rfl, rfl⟩ := exists_welcome (c := c) hgoes hended hfits
  exact ⟨w, houtcome, hwrote.trans hpassed, hfree'⟩

theorem openSession_of_welcome (w : Welcome c nonce) {r : Octets} {size : Nat}
    (hopen : l.Open (((StartupMessage.ofConfig c).encode ++ w.replies).length + size))
    (hunread : l.unread = w.encode ++ r) :
    ∃ l', openSession c nonce l = .ok w.outcome l' ∧ l'.unread = r ∧ l'.Open size := by
  have hfits := List.forall_mem_append.mp w.fits
  have hstream : l.unread = w.opening.flatMap Frame.encode ++ (w.ready.encode ++ r) := by
    rw [hunread, Welcome.encode, Welcome.frames, List.flatMap_append, List.flatMap_singleton,
      List.append_assoc]
  obtain ⟨l₁, hrun, hpassed, hopen₁⟩ :=
    Exchange.run_reaches (select nonce) w.goesOn hfits.1 hopen hstream
  have hready := hpassed.unread_of_append hstream
  obtain ⟨l₂, hread, htook⟩ :=
    readFrame_took (List.forall_mem_singleton.mp hfits.2) hready hopen₁.interruption_eq
  have hdone := Exchange.rule_of_done (select nonce) w.done
  refine ⟨l₂, ?_, htook.unread_of_append hready, hopen₁.took htook⟩
  refine hrun.trans ?_
  rw [converse_of_read _ _ hread, hdone]
  rfl

/-! ## The queries that set the session up -/

/-- The queries that set a session up, in their order. -/
def setUpQueries (c : Config) : List String :=
  isolationProbe :: c.schema.toList.map schemaStatement

/-- What a server says in an attempt that succeeds: it opens the session, and answers each of the
queries that set it up without an error. -/
structure Script (c : Config) (nonce : String) where
  welcome : Welcome c nonce
  probe : Segment
  chosen : List Segment
  length_eq : (probe :: chosen).length = (setUpQueries c).length
  /-- What the answer to the probe tells. -/
  result : QueryResult
  probed : probe.outcome = .ok result
  accepted : ∀ s ∈ chosen, ∃ result, s.outcome = .ok result

namespace Script

variable (s : Script c nonce)

def answers : List Segment :=
  s.probe :: s.chosen

def frames : List Frame :=
  s.welcome.frames ++ s.answers.flatMap Segment.frames

theorem unreported : ∀ f ∈ s.frames, f.kind ≠ 'E' := by
  refine List.forall_mem_append.mpr ⟨s.welcome.unreported, fun f hf => ?_⟩
  obtain ⟨answer, hanswer, hf⟩ := List.mem_flatMap.mp hf
  have hanswered : ∃ result, answer.outcome = .ok result := by
    rcases List.mem_cons.mp hanswer with rfl | hchosen
    · exact ⟨s.result, s.probed⟩
    · exact s.accepted answer hchosen
  exact (Segment.outcome_eq_ok_iff answer).mp hanswered f hf

end Script

theorem chooseSchema_eq_ok (hfree : l.interruption = none)
    (h : chooseSchema c l = .ok () l') :
    ∃ chosen : List Segment, chosen.length = c.schema.toList.length ∧
      (∀ s ∈ chosen, ∃ result, s.outcome = .ok result) ∧
      Passed (chosen.flatMap Segment.encode)
        ((c.schema.toList.map schemaStatement).flatMap Query.asked) l l' ∧
      l'.interruption = none := by
  unfold chooseSchema at h
  cases hschema : c.schema with
  | none =>
      rw [hschema] at h
      cases h
      exact ⟨[], rfl, nofun, .refl l, hfree⟩
  | some schema =>
      rw [hschema] at h
      obtain ⟨result, l₁, hset, hpure⟩ := bind_eq_ok h
      cases hpure
      obtain ⟨s, hresult, hpassed, hfree'⟩ := Query.run_eq_ok hfree (query_of_setUp_ok hset)
      refine ⟨[s], rfl, List.forall_mem_singleton.mpr ⟨result, hresult⟩, ?_, hfree'⟩
      rw [List.flatMap_singleton, Option.toList_some, List.map_singleton, List.flatMap_singleton]
      exact hpassed

theorem chooseSchema_of_answers {chosen : List Segment} {r : Octets} {size : Nat}
    (hlength : chosen.length = c.schema.toList.length)
    (haccepted : ∀ s ∈ chosen, ∃ result, s.outcome = .ok result)
    (hopen : l.Open (((c.schema.toList.map schemaStatement).flatMap Query.asked).length + size))
    (hunread : l.unread = chosen.flatMap Segment.encode ++ r) :
    ∃ l', chooseSchema c l = .ok () l' ∧ l'.unread = r ∧ l'.Open size := by
  unfold chooseSchema
  cases hschema : c.schema with
  | none =>
      rw [hschema] at hlength hopen
      cases List.length_eq_zero_iff.mp hlength
      exact ⟨l, rfl, hunread, hopen.mono (Nat.le_add_left _ _)⟩
  | some schema =>
      rw [hschema] at hlength hopen
      obtain ⟨s, rfl⟩ := List.length_eq_one_iff.mp hlength
      rw [Option.toList_some, List.map_singleton, List.flatMap_singleton] at hopen
      rw [List.flatMap_singleton] at hunread
      obtain ⟨result, hresult⟩ := haccepted s (List.mem_singleton_self s)
      obtain ⟨l', hrun, hunread', hopen'⟩ := Query.run_of_segment hresult hopen hunread
      exact ⟨l', bind_of_ok (setUp_of_ok hrun), hunread', hopen'⟩

/-! ## The whole attempt -/

theorem prepare_eq_ok {connection : Connection} (hfree : l.interruption = none)
    (h : prepare c nonce l = .ok connection l') :
    ∃ s : Script c nonce, connection = handedOut c s.welcome.outcome s.result ∧
      Passed (s.welcome.encode ++ s.answers.flatMap Segment.encode)
        ((StartupMessage.ofConfig c).encode ++ s.welcome.replies ++
          (setUpQueries c).flatMap Query.asked) l l' := by
  rw [prepare_eq] at h
  obtain ⟨outcome, l₁, hopening, h⟩ := bind_eq_ok h
  obtain ⟨result, l₂, hprobe, h⟩ := bind_eq_ok h
  obtain ⟨_, l₃, hchoose, hpure⟩ := bind_eq_ok h
  cases hpure
  obtain ⟨w, rfl, hpassed₁, hfree₁⟩ := openSession_eq_ok hfree hopening
  obtain ⟨probe, hprobed, hpassed₂, hfree₂⟩ := Query.run_eq_ok hfree₁ (query_of_setUp_ok hprobe)
  obtain ⟨chosen, hlength, haccepted, hpassed₃, -⟩ := chooseSchema_eq_ok hfree₂ hchoose
  have hqueries : (probe :: chosen).length = (setUpQueries c).length := by
    rw [setUpQueries, List.length_cons, List.length_cons, hlength, List.length_map]
  refine ⟨⟨w, probe, chosen, hqueries, result, hprobed, haccepted⟩, rfl, ?_⟩
  rw [Script.answers, setUpQueries, List.flatMap_cons, List.flatMap_cons]
  exact hpassed₁.trans (hpassed₂.trans hpassed₃)

/-- A server that keeps to a script gets a connection handed out. -/
theorem create_of_script (s : Script c nonce) {r : Octets} (hopens : Opens c d)
    (hopen : l.Open ((StartupMessage.ofConfig c).encode ++ s.welcome.replies ++
      (setUpQueries c).flatMap Query.asked).length)
    (hunread : l.unread = s.welcome.encode ++ s.answers.flatMap Segment.encode ++ r) :
    ∃ l', create c nonce d l = .ok (handedOut c s.welcome.outcome s.result) l' ∧
      l'.unread = r := by
  have hopen₀ : (dialled c l).Open (((StartupMessage.ofConfig c).encode ++
      s.welcome.replies).length + ((Query.asked isolationProbe).length +
        (((c.schema.toList.map schemaStatement).flatMap Query.asked).length + 0))) := by
    have hroom : (dialled c l).Open _ :=
      ⟨hopen.interruption_eq, hopen.flushFault_eq, hopen.le_room⟩
    refine hroom.mono (Nat.le_of_eq ?_)
    simp only [setUpQueries, List.flatMap_cons, List.length_append]
    omega
  have hstream : (dialled c l).unread = s.welcome.encode ++
      (s.probe.encode ++ (s.chosen.flatMap Segment.encode ++ r)) := by
    rw [show (dialled c l).unread = l.unread from rfl, hunread, Script.answers, List.flatMap_cons]
    simp only [List.append_assoc]
  obtain ⟨l₁, hopening, hunread₁, hopen₁⟩ := openSession_of_welcome s.welcome hopen₀ hstream
  obtain ⟨l₂, hprobe, hunread₂, hopen₂⟩ := Query.run_of_segment s.probed hopen₁ hunread₁
  have hlength : s.chosen.length = c.schema.toList.length := by
    have hqueries := Nat.succ.inj s.length_eq
    rwa [List.length_map] at hqueries
  obtain ⟨l₃, hchoose, hunread₃, -⟩ :=
    chooseSchema_of_answers hlength s.accepted hopen₂ hunread₂
  have hprepare : prepare c nonce (dialled c l) =
      .ok (handedOut c s.welcome.outcome s.result) l₃ := by
    rw [prepare_eq, bind_of_ok hopening, bind_of_ok (setUp_of_ok hprobe), bind_of_ok hchoose]
    rfl
  refine ⟨l₃.free, ?_, hunread₃⟩
  rw [create_of_opens hopens, establish_of_ok hprepare]

/-- **A connection is handed out only after a whole transcript.**  When an attempt hands one out,
whatever the configuration and in whatever pieces the server's stream came: what was taken off the
stream are the frames of a script, up to the first readiness after the client was let in, and then
up to the next one for each query that sets the session up, with no error report among them; what
was sent are the startup packet, the replies of the exchange, and those queries.  The connection has
what the exchange was told, and the level that the answer to the probe names.  What a later query
reads begins right after the script. -/
theorem create_transcript {c : Config} {nonce : String} {d : Dial} {l l' : Link}
    {connection : Connection} (h : create c nonce d l = .ok connection l') :
    ∃ s : Script c nonce,
      Passed (s.welcome.encode ++ s.answers.flatMap Segment.encode)
        ((StartupMessage.ofConfig c).encode ++ s.welcome.replies ++
          (setUpQueries c).flatMap Query.asked) l l' ∧
      (∀ f ∈ s.frames, f.kind ≠ 'E') ∧
      connection.parameters = s.welcome.outcome.parameters ∧
      connection.processId? = s.welcome.outcome.backendKey.map BackendKey.processId ∧
      connection.secretKey? = s.welcome.outcome.backendKey.map BackendKey.secretKey ∧
      connection.isolation = probedLevel .builtin s.result ∧
      ∀ sql (answer : Segment) rest,
        l.unread = s.welcome.encode ++ s.answers.flatMap Segment.encode ++
          (answer.encode ++ rest) →
        l'.Open (Query.asked sql).length →
        ∃ l'', Query.ask sql l' = (answer.outcome, l'') ∧ l''.unread = rest := by
  cases creates_of_create h with
  | @handedOut _ l₁ hopens hprepare =>
      have hforetells := (prepare_resumable c nonce).foretells (dialled c l)
      rw [hprepare] at hforetells
      generalize hfree : prepare c nonce (dialled c l).free = r₀ at hforetells
      cases hforetells
      obtain ⟨s, rfl, hpassed⟩ := prepare_eq_ok rfl hfree
      have hwhole : Passed _ _ l l₁.free :=
        ⟨hpassed.unread_eq, consumed_dialled c l ▸ hpassed.consumed_eq,
          sent_dialled c l ▸ hpassed.sent_eq, hpassed.ending_eq⟩
      refine ⟨s, hwhole, s.unreported, rfl, rfl, rfl, rfl, ?_⟩
      intro sql answer rest hunread hopen
      have hroom : l₁.free.Open ((Query.asked sql).length + 0) := hopen
      obtain ⟨l'', hask, hunread'', -⟩ :=
        Query.ask_segment sql hroom (hwhole.unread_of_append hunread)
      exact ⟨l'', hask, hunread''⟩

/-- The answer to the probe of a server that isolates transactions strictly. -/
def shownLevel : Segment where
  body := [⟨84, [0, 1, 97, 0, 0, 0, 0, 0, 0, 0, 0, 0, 0, 25] ++ List.replicate 8 0⟩,
    ⟨68, [0, 1, 0, 0, 0, 12, 115, 101, 114, 105, 97, 108, 105, 122, 97, 98, 108, 101]⟩]
  ready := Exchange.readiness
  answering := (Query.answering_nil.concat (by decide) (fun _ => ⟨_, rfl⟩) (absurd · (by decide))
    (absurd · (by decide))).concat (by decide) (absurd · (by decide)) (absurd · (by decide))
      (fun _ => ⟨_, rfl, rfl⟩)
  ready_kind := by decide
  fits := by decide

/-- What is said by a server that lets the client in without asking for anything. -/
def trusting : Script {} "nonce" where
  welcome :=
    { before := []
      admission := Exchange.admission
      between := []
      ready := Exchange.readiness
      goesOn := by
        have hresults : (called (select "nonce") (credentials {}) [Exchange.admission]).1 =
          [.ok none, .ok (some .wait)] := rfl
        rw [List.nil_append, GoesOn, hresults]
        decide
      unadmitted := by decide
      admission_request := rfl
      admitted := rfl
      unready := by decide
      ready_kind := by decide
      done := rfl
      fits := by decide }
  probe := shownLevel
  chosen := []
  length_eq := rfl
  result := _
  probed := rfl
  accepted := nofun

/-- A server that lets the client in without asking for anything, and that goes on after its answer
to the probe. -/
theorem create_transcript_trusting :
    let stream := trusting.welcome.encode ++ trusting.answers.flatMap Segment.encode ++ [90]
    let l : Link := { arrived := [stream.take 3, [], stream.drop 3] }
    ∃ connection l', create {} "nonce" {} l = .ok connection l' ∧
      connection.isolation = .serializable ∧ l'.unread = [90] ∧
      ∃ s : Script {} "nonce",
        Passed (s.welcome.encode ++ s.answers.flatMap Segment.encode)
          ((StartupMessage.ofConfig {}).encode ++ s.welcome.replies ++
            (setUpQueries {}).flatMap Query.asked) l l' := by
  intro stream l
  have hunread : l.unread = stream := by
    show stream.take 3 ++ ([] ++ (stream.drop 3 ++ [])) = stream
    rw [List.nil_append, List.append_nil, List.take_append_drop]
  have hopens : Opens {} {} := by decide
  obtain ⟨l', hcreate, hunread'⟩ :=
    create_of_script trusting hopens (.of_unlimited rfl rfl rfl _) hunread
  obtain ⟨s, hpassed, -⟩ := create_transcript hcreate
  exact ⟨_, l', hcreate, rfl, hunread', s, hpassed⟩

end Factory

end PgFrontend
