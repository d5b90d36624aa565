import PgFrontend.Proofs.Session.Creation
import PgFrontend.Proofs.Wire.Following
/-!
# Reports of the server in answers to queries

An error that the server reports in answer to a query is noted, and told once the answer has been
read to its end, whatever else the answer says.  Until then it is only noted: when the reading ends
in another way, because there is nothing more to read or because a later frame can not be read for
what it is, the query fails for that, and the report is lost.
-/

namespace PgFrontend.Query

open Link Octets

variable {sql : String} {l : Link} {frames : List Frame}

/-- The frames that a query reads before it ends, once it has gone out. -/
def Heard (sql : String) (l : Link) (frames : List Frame) : Prop :=
  ∃ l₁, transmit (asked sql) l = .ok () l₁ ∧ Course rule {} l₁ frames (converse rule {} l₁)

/-- Whether an answer was read to its end. -/
def Drained (frames : List Frame) : Prop :=
  ∃ f ∈ frames.getLast?, f.kind = 'Z'

theorem not_drained_nil : ¬Drained [] := by
  rintro ⟨f, hf, -⟩
  cases hf

theorem drained_singleton_iff (f : Frame) : Drained [f] ↔ f.kind = 'Z' := by
  constructor
  · rintro ⟨g, hg, hready⟩
    cases hg
    exact hready
  · exact fun hready => ⟨f, rfl, hready⟩

theorem drained_cons_iff {f : Frame} (hunready : f.kind ≠ 'Z') :
    Drained (f :: frames) ↔ Drained frames := by
  cases frames with
  | nil =>
      constructor
      · exact fun h => absurd ((drained_singleton_iff f).mp h) hunready
      · exact fun h => absurd h not_drained_nil
  | cons g frames => rw [Drained, Drained, List.getLast?_cons_cons]

theorem firstError_cons (f : Frame) (frames : List Frame) :
    firstError (f :: frames) = (f.report? <|> firstError frames) := by
  rw [firstError, List.findSome?_cons]
  cases f.report? <;> rfl

theorem report_of_firstError {fault : Fault} (h : firstError frames = some fault) :
    ∃ report, fault = .server report := by
  obtain ⟨f, -, hreport⟩ := List.exists_of_findSome?_eq_some h
  exact Frame.report_of_report? hreport

/-- How the reading of an answer ends, when `found` is the first error among what was noted and the
frames that were read. -/
inductive Told (found : Option Fault) (frames : List Frame) :
    EStateM.Result Halt Link QueryResult → Prop
  | answered {result : QueryResult} {l' : Link} (hdrained : Drained frames)
      (hfound : found = none) : Told found frames (.ok result l')
  | reported {fault : Fault} {l' : Link} (hdrained : Drained frames)
      (hfound : found = some fault) : Told found frames (.error (.fault fault) l')
  /-- What was found is not told. -/
  | cutShort {halt : Halt} {l' : Link} (hshort : ¬Drained frames)
      (hhalt : ∀ fault, halt = .fault fault → fault.isServer = false) :
      Told found frames (.error halt l')

theorem Told.cons {found : Option Fault} {f : Frame} {r : EStateM.Result Halt Link QueryResult}
    (hunready : f.kind ≠ 'Z') (h : Told found frames r) : Told found (f :: frames) r := by
  have hiff : Drained (f :: frames) ↔ Drained frames := drained_cons_iff hunready
  cases h with
  | answered hdrained hfound => exact .answered (hiff.mpr hdrained) hfound
  | reported hdrained hfound => exact .reported (hiff.mpr hdrained) hfound
  | cutShort hshort hhalt => exact .cutShort (hshort ∘ hiff.mp) hhalt

theorem readFrame_orderly : Orderly (·.isServer = false) readFrame :=
  .readFrame (fun _ => rfl) fun _ => rfl

/-- The end of an answer, by what each frame does to what was noted before it. -/
theorem told_of_course {p : Progress} {r : EStateM.Result Halt Link QueryResult}
    (hflush : ∀ fault ∈ l.flushFault, fault.isIo = true) (h : Course rule p l frames r) :
    Told (p.error <|> firstError frames) frames r := by
  induction h with
  | @stuck p l l' halt hread =>
      refine .cutShort not_drained_nil fun fault hfault => ?_
      subst hfault
      rcases readFrame_orderly.mayHalt hread with hunreported | hpushed
      · exact hunreported
      · exact Fault.not_isServer_of_isIo (hflush fault hpushed)
  | @done p l l' f result hread hrule =>
      cases turns_of_rule hrule with
      | done hready hnoted =>
          have hunreported : firstError [f] = none := by
            rw [firstError_cons, Frame.report?, if_neg (hready ▸ by decide)]
            rfl
          refine .answered ((drained_singleton_iff f).mpr hready) ?_
          rw [hnoted, hunreported]
          rfl
  | @failed p l l' f fault hread hrule =>
      cases turns_of_rule hrule with
      | malformed hunready hfault =>
          refine .cutShort (mt (drained_singleton_iff f).mp hunready) fun other hother => ?_
          cases hother
          exact Fault.not_isServer_of_isProtocol hfault
      | reported hready hnoted =>
          refine .reported ((drained_singleton_iff f).mpr hready) ?_
          rw [hnoted]
          rfl
  | unsent _ hrule => cases turns_of_rule hrule
  | @waited p next l l' f frames r hread hrule _ ih =>
      cases turns_of_rule hrule with
      | wait hunready herror =>
          have hpushed := (readFrame_orderly.moved_of_ok hread).flushFault_eq
          have htold := ih (hpushed ▸ hflush)
          have hfound : (p.error <|> firstError (f :: frames)) =
              (next.error <|> firstError frames) := by
            rw [firstError_cons, herror]
            cases p.error <;> rfl
          exact hfound ▸ htold.cons hunready
  | sent _ hrule => cases turns_of_rule hrule

theorem told_of_heard (hflush : ∀ fault ∈ l.flushFault, fault.isIo = true)
    (h : Heard sql l frames) : Told (firstError frames) frames (run sql l) := by
  obtain ⟨l₁, htransmit, hcourse⟩ := h
  have hmoved := (Resumable.transmit (asked sql)).steady.moved_of_ok htransmit
  have htold := told_of_course (hmoved.flushFault_eq ▸ hflush) hcourse
  have hrun : run sql l = converse rule {} l₁ := bind_of_ok htransmit
  rw [hrun]
  exact htold

theorem heard_of_course {l₁ : Link} {r : EStateM.Result Halt Link QueryResult}
    (htransmit : transmit (asked sql) l = .ok () l₁) (h : Course rule {} l₁ frames r) :
    Heard sql l frames := by
  refine ⟨l₁, htransmit, ?_⟩
  rw [h.converse_eq]
  exact h

/-- A query over a link on which a frame has arrived goes out, and the frame is read. -/
theorem read_of_arrived {f : Frame} {r : Octets} (sql : String) (hfits : f.Fits)
    (hunread : l.unread = f.encode ++ r) (hopen : l.Open (asked sql).length) :
    ∃ l₁ l₂, transmit (asked sql) l = .ok () l₁ ∧ readFrame l₁ = .ok f l₂ ∧
      Passed f.encode (asked sql) l l₂ ∧ l₂.interruption = none := by
  have hroom : l.Open ((asked sql).length + 0) := hopen
  obtain ⟨l₁, htransmit, hwrote, hopen₁⟩ := transmit_passed (asked sql) hroom
  obtain ⟨l₂, hread, htook⟩ :=
    readFrame_took hfits (hwrote.unread_of_append hunread) hopen₁.interruption_eq
  have hpassed := hwrote.trans htook.passed
  rw [List.append_nil] at hpassed
  exact ⟨l₁, l₂, htransmit, hread, hpassed, htook.interruption_eq.trans hopen₁.interruption_eq⟩

/-- A server that ends the session: it says so, and that is the last that it says. -/
def farewell : Frame :=
  ⟨69, ofString "SFATAL" ++ [0] ++ ofString "C57P01" ++ [0, 0]⟩

/-- **A report is told just when its answer was read to the end.**  If the server reports an error
in answer to a query, the query does not succeed.  It fails with the first such error if the reading
goes on to the end of the answer, whatever else is read before that; an attempt to create a
connection that this query is part of then says so, and that trying again does not help.  If the
reading ends in any other way, neither the query nor the attempt says anything of the server's
error. -/
theorem report_told_iff_drained {fault : Fault}
    (hflush : ∀ fault ∈ l.flushFault, fault.isIo = true) (hheard : Heard sql l frames)
    (hreport : firstError frames = some fault) :
    ((∃ l', run sql l = .error (.fault fault) l') ↔ Drained frames) ∧
      (¬Drained frames → ∃ halt l', run sql l = .error halt l' ∧
        ∀ other, halt = .fault other → other.isServer = false) ∧
      ∀ c nonce d l₀ source l', Factory.Opens c d →
        Factory.SetUpQuery c nonce (Factory.dialled c l₀) sql l →
        run sql l = .error (.fault source) l' →
        ∃ told l'', Factory.create c nonce d l₀ = .error (.fault told) l'' ∧
          (told.isServer = true ↔ Drained frames) ∧
          (Drained frames → told.serverError? = fault.serverError? ∧ told.isTransient = false) := by
  obtain ⟨report, rfl⟩ := report_of_firstError hreport
  have htold := told_of_heard hflush hheard
  rw [hreport] at htold
  have hends : Drained frames ∧ (∃ l', run sql l = .error (.fault (.server report)) l') ∨
      ¬Drained frames ∧ ∃ halt l', run sql l = .error halt l' ∧
        ∀ other, halt = .fault other → other.isServer = false := by
    generalize run sql l = r at htold
    cases htold with
    | answered hdrained hfound => cases hfound
    | @reported fault l' hdrained hfound =>
        cases hfound
        exact .inl ⟨hdrained, l', rfl⟩
    | @cutShort halt l' hshort hhalt => exact .inr ⟨hshort, halt, l', rfl, hhalt⟩
  rcases hends with ⟨hdrained, l₁, hrun⟩ | ⟨hshort, halt, l₁, hrun, hhalt⟩
  · refine ⟨⟨fun _ => hdrained, fun _ => ⟨l₁, hrun⟩⟩, fun h => absurd hdrained h, ?_⟩
    intro c nonce d l₀ source l' hopens hquery hfails
    obtain ⟨l'', hcreate, -⟩ :=
      Factory.create_of_fault hopens (Factory.prepare_of_query hquery hfails)
    cases hrun.symm.trans hfails
    exact ⟨_, l'', hcreate, ⟨fun _ => hdrained, fun _ => rfl⟩, fun _ => ⟨rfl, rfl⟩⟩
  · refine ⟨⟨?_, fun h => absurd h hshort⟩, fun _ => ⟨halt, l₁, hrun, hhalt⟩, ?_⟩
    · rintro ⟨l', hserver⟩
      cases hrun.symm.trans hserver
      cases hhalt _ rfl
    · intro c nonce d l₀ source l' hopens hquery hfails
      obtain ⟨l'', hcreate, -⟩ :=
        Factory.create_of_fault hopens (Factory.prepare_of_query hquery hfails)
      cases hrun.symm.trans hfails
      have hunreported : (Fault.connect c.host c.port source).isServer = false := hhalt source rfl
      refine ⟨_, l'', hcreate, ⟨fun hserver => ?_, fun h => absurd h hshort⟩,
        fun h => absurd h hshort⟩
      cases hunreported.symm.trans hserver

/-- An answer that is complete: its report is told. -/
theorem report_told_iff_drained_refusal :
    ∃ fault l', run "SELECT nothing" { arrived := [refusal.encode] } = .error (.fault fault) l' ∧
      fault.isServer = true := by
  let complaint : Frame := ⟨69, ofString "Mno" ++ [0, 0]⟩
  let l : Link := { arrived := [refusal.encode] }
  have hunread : l.unread = complaint.encode ++ (refusal.ready.encode ++ []) := rfl
  obtain ⟨l₁, l₂, htransmit, hread, hpassed, hfree⟩ :=
    read_of_arrived (l := l) "SELECT nothing" (by decide) hunread (.of_unlimited rfl rfl rfl _)
  obtain ⟨l₃, hready, -⟩ := readFrame_took (by decide) (hpassed.unread_of_append hunread) hfree
  have hcourse : Course rule {} l₁ [complaint, refusal.ready]
      (.error (.fault (.ofErrorReport complaint.payload)) l₃) :=
    .waited hread rfl (.failed hready rfl)
  have hheard : Heard "SELECT nothing" l [complaint, refusal.ready] :=
    heard_of_course htransmit hcourse
  obtain ⟨htold, -, -⟩ := report_told_iff_drained (l := l) nofun hheard rfl
  obtain ⟨l', hrun⟩ := htold.mpr ⟨refusal.ready, rfl, rfl⟩
  exact ⟨_, l', hrun, rfl⟩

/-- An answer that breaks off after its report: the query fails as if there had been no report. -/
theorem report_lost_at_early_end :
    Heard "SELECT 1" { arrived := [farewell.encode] } [farewell] ∧
      firstError [farewell] = some (.ofErrorReport farewell.payload) ∧
      ∃ l', run "SELECT 1" { arrived := [farewell.encode] } =
        .error (.fault (.io .earlyEnd)) l' := by
  let l : Link := { arrived := [farewell.encode] }
  have hunread : l.unread = farewell.encode ++ [] := rfl
  obtain ⟨l₁, l₂, htransmit, hread, hpassed, hfree⟩ :=
    read_of_arrived (l := l) "SELECT 1" (by decide) hunread (.of_unlimited rfl rfl rfl _)
  have hnone : Frame.decode l₂.unread = .error (.io .earlyEnd) := by
    rw [hpassed.unread_of_append hunread]
    rfl
  obtain ⟨-, l₃, htorn, -⟩ := readFrame_torn hpassed.ending_eq hfree hnone
  have hcourse : Course rule {} l₁ [farewell] (.error (.fault (.io .earlyEnd)) l₃) :=
    .waited hread rfl (.stuck htorn)
  refine ⟨heard_of_course htransmit hcourse, rfl, l₃, ?_⟩
  exact (bind_of_ok htransmit).trans hcourse.converse_eq

end PgFrontend.Query
