import PgFrontend.Proofs.Exchange.Parallel
/-!
# Sequences of calls

An exchange is driven by calls: one that notes that the startup packet is out, and one for each
message of the server.  A run makes any number of them in any order and keeps their results.

A way of choosing a mechanism can be made to remember something of what it is asked, such as how
often that was.  What it remembers is only looked on: `perform_forget` says that the exchange does
not notice it.
-/

namespace PgFrontend.Exchange

inductive Call
  | startupSent
  | message (frame : Frame)
  deriving Repr, DecidableEq

variable {S H : Type}

def start (chooser : S) : Exchange S H :=
  { chooser }

variable [Authenticator H]

def call (select : S → AuthRequest → Except Fault H × S) (x : Exchange S H) :
    Call → Except Fault (Option Step) × Exchange S H
  | .startupSent => (x.startupSent.1.map fun _ => none, x.startupSent.2)
  | .message frame => ((x.receive select frame).1.map some, (x.receive select frame).2)

/-- The results of calls that are made one after another, and the exchange after them. -/
def perform (select : S → AuthRequest → Except Fault H × S) (x : Exchange S H) :
    List Call → List (Except Fault (Option Step)) × Exchange S H
  | [] => ([], x)
  | c :: calls =>
      let (result, next) := x.call select c
      let (results, last) := next.perform select calls
      (result :: results, last)

variable (select : S → AuthRequest → Except Fault H × S)

@[simp] theorem perform_nil (x : Exchange S H) : x.perform select [] = ([], x) := rfl

theorem perform_append (x : Exchange S H) (calls more : List Call) :
    x.perform select (calls ++ more) =
      ((x.perform select calls).1 ++ ((x.perform select calls).2.perform select more).1,
        ((x.perform select calls).2.perform select more).2) := by
  induction calls generalizing x with
  | nil => rfl
  | cons c calls ih =>
      simp only [List.cons_append, perform, ih]

theorem perform_concat (x : Exchange S H) (calls : List Call) (c : Call) :
    x.perform select (calls ++ [c]) =
      ((x.perform select calls).1 ++ [((x.perform select calls).2.call select c).1],
        ((x.perform select calls).2.call select c).2) := by
  rw [perform_append]
  rfl

/-! ## Two runs side by side -/

/-- Two calls that are both answered with something to send. -/
inductive BothSend (D : ClientMessage → ClientMessage → Prop) :
    Except Fault (Option Step) → Except Fault (Option Step) → Prop
  | intro {reply reply' : ClientMessage} (h : D reply reply') :
      BothSend D (.ok (some (.send reply))) (.ok (some (.send reply')))

theorem not_bothSend {result result' : Except Fault (Option Step)} :
    ¬BothSend (fun _ _ => False) result result' := by
  rintro ⟨hnever⟩
  exact hnever

variable {select}

section Beside

variable {T K : Type} [Authenticator K] {R : S → T → Prop} {Q : H → K → Prop}
  {D : ClientMessage → ClientMessage → Prop} {select' : T → AuthRequest → Except Fault K × T}
  {x : Exchange S H} {y : Exchange T K}

/-- One call of each of two exchanges that stand side by side. -/
theorem call_beside (hmatch : Matching R Q D select select') (h : Beside R Q x y) (c : Call) :
    ((x.call select c).1 = (y.call select' c).1 ∧
        Beside R Q (x.call select c).2 (y.call select' c).2) ∨
      BothSend D (x.call select c).1 (y.call select' c).1 ∧
        LooksLike (x.call select c).2 (y.call select' c).2 := by
  cases c with
  | startupSent =>
      obtain ⟨hresult, hnext⟩ := startupSent_beside h
      exact .inl ⟨by simp only [call, hresult], hnext⟩
  | message frame =>
      have hreceived := receive_received hmatch h frame
      unfold call
      dsimp only
      generalize x.receive select frame = received at hreceived ⊢
      generalize y.receive select' frame = received' at hreceived ⊢
      cases hreceived with
      | same result hnext => exact .inl ⟨rfl, hnext⟩
      | apart hreply hlooks => exact .inr ⟨⟨hreply⟩, hlooks⟩

theorem perform_beside (hmatch : Matching R Q (fun _ _ => False) select select')
    (h : Beside R Q x y) (calls : List Call) :
    (x.perform select calls).1 = (y.perform select' calls).1 ∧
      Beside R Q (x.perform select calls).2 (y.perform select' calls).2 := by
  induction calls generalizing x y with
  | nil => exact ⟨rfl, h⟩
  | cons c calls ih =>
      rcases call_beside hmatch h c with ⟨hresult, hnext⟩ | ⟨hsend, -⟩
      · obtain ⟨hresults, hlast⟩ := ih hnext
        simp only [perform, hresult, hresults]
        exact ⟨trivial, hlast⟩
      · exact absurd hsend not_bothSend

end Beside

/-! ## Choosers with a memory -/

variable (select) {M : Type}

/-- The exchange without what its chooser remembers. -/
def forget (x : Exchange (S × M) H) : Exchange S H :=
  { x with chooser := x.chooser.1 }

omit [Authenticator H] in
theorem beside_forget (x : Exchange (S × M) H) :
    Beside (fun s t => s.1 = t) Eq x x.forget := by
  refine ⟨⟨rfl, rfl, rfl⟩, rfl, ?_⟩
  show Option.Rel Eq x.handler x.handler
  cases x.handler with
  | none => exact .none
  | some side => exact .some rfl

omit [Authenticator H] in
theorem Beside.forget_eq {x : Exchange (S × M) H} {y : Exchange S H}
    (h : Beside (fun s t => s.1 = t) Eq x y) : x.forget = y := by
  obtain ⟨⟨hstage, hhistory, houtcome⟩, hchooser, hhandler⟩ := h
  have hsides : x.handler = y.handler := by
    generalize x.handler = handler at hhandler ⊢
    generalize y.handler = handler' at hhandler ⊢
    cases hhandler with
    | none => rfl
    | some hside => rw [hside]
  rw [forget, hsides, hstage, hhistory, houtcome, hchooser]

/-- An exchange whose chooser remembers something runs like the one whose chooser does not. -/
theorem perform_forget {remembering : S × M → AuthRequest → Except Fault H × (S × M)}
    (hanswer : ∀ s request, (remembering s request).1 = (select s.1 request).1)
    (hnext : ∀ s request, (remembering s request).2.1 = (select s.1 request).2)
    (x : Exchange (S × M) H) (calls : List Call) :
    x.forget.perform select calls = (x.perform remembering calls).map id forget := by
  have hmatch : Matching (fun s t => s.1 = t) Eq (fun _ _ => False) remembering select := by
    constructor
    · rintro s _ rfl request
      refine ⟨?_, hnext s request⟩
      rw [hanswer]
      exact .rfl _
    · rintro side _ rfl
      rfl
    · rintro side _ rfl
      rfl
    · rintro side _ rfl request
      exact .rfl _
  obtain ⟨hresults, hlast⟩ := perform_beside hmatch (beside_forget x) calls
  exact Prod.ext hresults.symm hlast.forget_eq.symm

/-! ## Counting how often the chooser is asked -/

def tallied : S × Nat → AuthRequest → Except Fault H × (S × Nat) :=
  fun (chooser, asked) request =>
    ((select chooser request).1, (select chooser request).2, asked + 1)

def untallied (x : Exchange (S × Nat) H) : Exchange S H :=
  { x with chooser := x.chooser.1 }

theorem perform_untallied (x : Exchange (S × Nat) H) (calls : List Call) :
    x.untallied.perform select calls =
      (x.perform (tallied select) calls).map id untallied :=
  perform_forget select (fun _ _ => rfl) (fun _ _ => rfl) x calls

end PgFrontend.Exchange
