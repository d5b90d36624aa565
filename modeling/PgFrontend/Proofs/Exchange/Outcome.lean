import Mathlib.Data.List.Induction
import PgFrontend.Proofs.Exchange.Calls
/-!
# What an exchange has been told

An outcome holds what the accepted messages tell, and no more: `Outcome.Tells` says so of a list of
messages, `Receipt.tells` adds one message to it, and `tells_perform` is what that comes to over a
run.  A message that is not accepted leaves its mark, if any, only on the mechanism.

Which sides were chosen is seen by a chooser that keeps its answers.
-/

namespace PgFrontend

namespace Frame

/-- The run-time parameter that a message reports. -/
def status? (f : Frame) : Option ParameterStatus :=
  if f.kind = 'S' then (ParameterStatus.parse f.payload).toOption else none

/-- The key that a message reports. -/
def key? (f : Frame) : Option BackendKey :=
  if f.kind = 'K' then (BackendKey.parse f.payload).toOption else none

/-- Whether an exchange has no use of its own for a message. -/
def isPassed (f : Frame) : Bool :=
  f.kind ∉ ['E', 'R', 'S', 'K', 'Z']

/-- The value that the last report among some messages gives to a parameter. -/
def lastValue? (frames : List Frame) (name : String) : Option String :=
  (((frames.filterMap status?).filter (·.name = name)).getLast?).map (·.value)

theorem lastValue?_concat_of_none {frame : Frame} (h : frame.status? = none) (frames : List Frame)
    (name : String) : lastValue? (frames ++ [frame]) name = lastValue? frames name := by
  simp [lastValue?, h]

theorem lastValue?_concat_self {frame : Frame} {status : ParameterStatus}
    (h : frame.status? = some status) (frames : List Frame) :
    lastValue? (frames ++ [frame]) status.name = some status.value := by
  simp [lastValue?, h]

theorem lastValue?_concat_of_ne {frame : Frame} {status : ParameterStatus}
    (h : frame.status? = some status) (frames : List Frame) {name : String}
    (hne : name ≠ status.name) : lastValue? (frames ++ [frame]) name = lastValue? frames name := by
  simp [lastValue?, h, hne.symm]

end Frame

namespace Outcome

/-- An outcome holds what some messages tell: the last value of each parameter and no other
parameter, the last key, and all messages without another use, in their order. -/
structure Tells (o : Outcome) (frames : List Frame) : Prop where
  parameter : ∀ name, o.parameters.find? name = Frame.lastValue? frames name
  names_nodup : (o.parameters.entries.map (·.1)).Nodup
  backendKey : o.backendKey = (frames.filterMap Frame.key?).getLast?
  passthrough : o.passthrough = frames.filter Frame.isPassed
  /-- No report among the messages is without a meaning. -/
  readable : ∀ f ∈ frames,
    (f.kind = 'S' → f.status?.isSome = true) ∧ (f.kind = 'K' → f.key?.isSome = true)

variable {o o' : Outcome} {frames : List Frame} {frame : Frame}

/-- What one more message adds to what an outcome holds. -/
theorem Tells.concat (h : o.Tells frames)
    (hparameters : o'.parameters = frame.status?.elim o.parameters fun status =>
      o.parameters.insert status.name status.value)
    (hkey : o'.backendKey = frame.key?.or o.backendKey)
    (hpassed : o'.passthrough = o.passthrough ++ [frame].filter Frame.isPassed)
    (hreadable : (frame.kind = 'S' → frame.status?.isSome = true) ∧
      (frame.kind = 'K' → frame.key?.isSome = true)) :
    o'.Tells (frames ++ [frame]) := by
  constructor
  · intro name
    rw [hparameters]
    cases hstatus : frame.status? with
    | none => rw [Option.elim_none, h.parameter, Frame.lastValue?_concat_of_none hstatus]
    | some status =>
        rw [Option.elim_some]
        by_cases hname : name = status.name
        · rw [hname, Settings.find?_insert_self, Frame.lastValue?_concat_self hstatus]
        · rw [Settings.find?_insert_of_ne _ _ _ hname, h.parameter,
            Frame.lastValue?_concat_of_ne hstatus frames hname]
  · rw [hparameters]
    cases frame.status? with
    | none => exact h.names_nodup
    | some status => exact Settings.nodup_insert h.names_nodup _ _
  · rw [hkey, h.backendKey, List.filterMap_append]
    cases hframe : frame.key? <;> simp [hframe]
  · rw [hpassed, h.passthrough, List.filter_append]
  · intro f hf
    rcases List.mem_append.mp hf with hold | hnew
    · exact h.readable f hold
    · rwa [List.mem_singleton.mp hnew]

/-- Two outcomes hold the same, up to the mechanism. -/
structure SameReports (o o' : Outcome) : Prop where
  parameters : o'.parameters = o.parameters
  backendKey : o'.backendKey = o.backendKey
  passthrough : o'.passthrough = o.passthrough

theorem SameReports.refl (o : Outcome) : o.SameReports o :=
  ⟨rfl, rfl, rfl⟩

end Outcome

namespace Exchange

/-- The message of a call that was accepted. -/
def accepted? : Call × Except Fault (Option Step) → Option Frame
  | (.message frame, .ok _) => some frame
  | _ => none

/-- The messages among some calls that were accepted, by the results of the calls. -/
def accepted (calls : List Call) (results : List (Except Fault (Option Step))) : List Frame :=
  (calls.zip results).filterMap accepted?

variable {S H : Type} [Authenticator H] {select : S → AuthRequest → Except Fault H × S}
  {x y : Exchange S H} {frame : Frame} {frames : List Frame}

variable (select)

/-- A chooser that keeps its answers. -/
def logged :
    S × List (Except Fault H) → AuthRequest → Except Fault H × (S × List (Except Fault H)) :=
  fun (chooser, answers) request =>
    ((select chooser request).1, (select chooser request).2,
      answers ++ [(select chooser request).1])

/-- Whether a side was chosen is known from the exchange, and its mechanism is in the outcome. -/
inductive Picked (x : Exchange (S × List (Except Fault H)) H) : Prop
  | none (hhandler : x.handler = none) (hmechanism : x.outcome.mechanism = none)
      (hanswers : ∀ side, .ok side ∉ x.chooser.2)
  | one (side : H) (hhandler : x.handler.isSome = true)
      (hmechanism : x.outcome.mechanism = some (Authenticator.mechanism side))
      (hanswers : ∀ side', .ok side' ∈ x.chooser.2 ↔ side' = side)

variable {select} {w v : Exchange (S × List (Except Fault H)) H}

theorem Picked.of_eq (h : w.Picked) (hhandler : v.handler = w.handler)
    (hmechanism : v.outcome.mechanism = w.outcome.mechanism) (hchooser : v.chooser = w.chooser) :
    v.Picked := by
  cases h with
  | none hnone hunset hanswers =>
      exact .none (hhandler.trans hnone) (hmechanism.trans hunset) (hchooser ▸ hanswers)
  | one side hsome hset hanswers =>
      exact .one side (hhandler ▸ hsome) (hmechanism.trans hset) (hchooser ▸ hanswers)

/-- Asking for a side keeps the account: the chooser is asked only if there is none yet. -/
theorem Picked.chosen {request : AuthRequest} {found : Except Fault H}
    (h : Chosen (logged select) w request found v) (hw : w.Picked) : v.Picked := by
  have hanswer {answer : Except Fault H} {chooser : S × List (Except Fault H)}
      (hselect : logged select w.chooser request = (answer, chooser)) :
      chooser.2 = w.chooser.2 ++ [answer] := by
    have hgiven : (select w.chooser.1 request).1 = answer := congrArg Prod.fst hselect
    have hkept : w.chooser.2 ++ [(select w.chooser.1 request).1] = chooser.2 :=
      congrArg (·.2.2) hselect
    rw [← hkept, hgiven]
  cases h with
  | before => exact hw
  | now side chooser hhandler hselect =>
      cases hw with
      | none _ _ hanswers =>
          refine .one side rfl rfl fun side' => ?_
          rw [hanswer hselect, List.mem_append]
          simp [hanswers side']
      | one _ hsome => simp [hhandler] at hsome
  | never fault chooser hhandler hselect =>
      cases hw with
      | none hnone hunset hanswers =>
          refine .none hnone hunset fun side => ?_
          rw [hanswer hselect, List.mem_append]
          simp [hanswers side]
      | one _ hsome => simp [hhandler] at hsome

theorem Picked.kept (h : v.Picked) {side : H} (hside : v.handler = some side) (next : H) :
    Picked { v with handler := some next } := by
  cases h with
  | none hnone => simp [hnone] at hside
  | one side _ hmechanism hanswers => exact .one side rfl hmechanism hanswers

theorem Picked.receipt {result : Except Fault Step} (h : Receipt (logged select) w frame result v)
    (hw : w.Picked) : v.Picked := by
  have hentered (u : Exchange (S × List (Except Fault H)) H) (s : Stage) (hu : u.Picked) :
      (u.enter s).Picked :=
    hu.of_eq rfl rfl rfl
  cases h with
  | outOfTurn => exact hw.of_eq (fail_handler w) (by rw [fail_outcome]) (fail_chooser w)
  | refused => exact hentered w _ hw
  | noted _ _ hnotes => exact hw.of_eq rfl hnotes.mechanism_eq rfl
  | opened => exact hentered w _ hw
  | admitted => exact hentered w _ hw
  | unchosen _ _ u _ _ _ hchosen =>
      exact hentered u _ (Picked.chosen hchosen (hentered w _ hw))
  | unanswered _ _ _ u _ _ _ hchosen =>
      exact hentered u _ (Picked.chosen hchosen (hentered w _ hw))
  | replied _ _ _ next u _ _ _ hchosen =>
      apply hentered
      exact (Picked.chosen hchosen (hentered w _ hw)).kept hchosen.handler_eq next
  | silent _ _ next u _ _ _ hchosen =>
      exact (Picked.chosen hchosen (hentered w _ hw)).kept hchosen.handler_eq next

end Exchange

end PgFrontend
