import Mathlib.Data.List.Basic
import Mathlib.Data.List.Induction
import PgFrontend.Proofs.Wire.Frame
import PgFrontend.Proofs.Wire.Transfers
import PgFrontend.Session.Query
/-!
# Queries and their answers

A server answers a query with one segment of its stream: any frames, and then the one that says it
is ready again.  What a segment means is said here without any reading: `Segment.outcome` looks only
at the frames of the segment.  `take_concat` says that reading one more frame keeps up with that
meaning, and `queries_stay_in_step` that a session of queries gets one outcome for each segment.
-/

namespace PgFrontend

open Octets

/-! ## What the frames of an answer mean -/

namespace Frame

def description? (f : Frame) : Option (List Column) :=
  if f.kind = 'T' then (Column.parseAll f.payload).toOption else none

def values? (f : Frame) : Option (List (Option Octets)) :=
  if f.kind = 'D' then (DataRow.parse f.payload).toOption else none

def finished? (f : Frame) : Option String :=
  if f.kind = 'C' then (commandTag f.payload).toOption else none

def report? (f : Frame) : Option Fault :=
  if f.kind = 'E' then some (.ofErrorReport f.payload) else none

end Frame

namespace Query

/-- The columns that were described last. -/
def described (frames : List Frame) : List Column :=
  (frames.filterMap Frame.description?).getLast?.getD []

/-- The rows among frames, each with the columns that were described last before it. -/
def rows (frames : List Frame) : List Row :=
  frames.zipIdx.filterMap fun (f, i) =>
    f.values?.map fun values => { columns := described (frames.take i), values }

def tags (frames : List Frame) : List String :=
  frames.filterMap Frame.finished?

def firstError (frames : List Frame) : Option Fault :=
  frames.findSome? Frame.report?

/-- What is known after some frames. -/
def known (frames : List Frame) : Progress where
  columns := described frames
  result := { rows := rows frames, tags := tags frames }
  error := firstError frames

theorem described_concat (frames : List Frame) (f : Frame) :
    described (frames ++ [f]) = f.description?.getD (described frames) := by
  rw [described, List.filterMap_append]
  cases hdescription : f.description? with
  | none => simp [hdescription, described]
  | some columns => simp [hdescription]

theorem rows_concat (frames : List Frame) (f : Frame) :
    rows (frames ++ [f]) = rows frames ++
      (f.values?.map fun values => Row.mk (described frames) values).toList := by
  have hbefore : frames.zipIdx.filterMap (fun (g, i) => g.values?.map fun values =>
      Row.mk (described ((frames ++ [f]).take i)) values) = rows frames := by
    apply List.filterMap_congr
    rintro ⟨g, i⟩ hg
    have hle : i ≤ frames.length := Nat.le_of_lt (List.mem_zipIdx' hg).1
    simp only [List.take_append_of_le_length hle]
  rw [rows, List.zipIdx_append, List.filterMap_append, hbefore]
  cases hvalues : f.values? <;> simp [hvalues]

theorem tags_concat (frames : List Frame) (f : Frame) :
    tags (frames ++ [f]) = tags frames ++ f.finished?.toList := by
  rw [tags, List.filterMap_append]
  cases hfinished : f.finished? <;> simp [hfinished, tags]

theorem firstError_concat (frames : List Frame) (f : Frame) :
    firstError (frames ++ [f]) = (firstError frames <|> f.report?) := by
  rw [firstError, List.findSome?_append, List.findSome?_singleton, Option.orElse_eq_orElse,
    Option.orElse_eq_or]
  rfl

theorem known_concat (frames : List Frame) (f : Frame) :
    known (frames ++ [f]) =
      { columns := f.description?.getD (described frames)
        result :=
          { rows := rows frames ++
              (f.values?.map fun values => Row.mk (described frames) values).toList
            tags := tags frames ++ f.finished?.toList }
        error := firstError frames <|> f.report? } := by
  rw [known, described_concat, rows_concat, tags_concat, firstError_concat]

/-- Frames that the reading of an answer goes on after: none of them ends it, each can be read for
what it is, and each row has as many values as columns were described last before it. -/
structure Answering (frames : List Frame) : Prop where
  unready : ∀ f ∈ frames, f.kind ≠ 'Z'
  descriptions : ∀ f ∈ frames, f.kind = 'T' → ∃ columns, Column.parseAll f.payload = .ok columns
  finished : ∀ f ∈ frames, f.kind = 'C' → ∃ tag, commandTag f.payload = .ok tag
  rows : ∀ before f after, frames = before ++ f :: after → f.kind = 'D' →
    ∃ values, DataRow.parse f.payload = .ok values ∧ values.length = (described before).length

theorem Answering.of_append {frames more : List Frame} (h : Answering (frames ++ more)) :
    Answering frames := by
  constructor
  · exact fun f hf => h.unready f (List.mem_append_left _ hf)
  · exact fun f hf => h.descriptions f (List.mem_append_left _ hf)
  · exact fun f hf => h.finished f (List.mem_append_left _ hf)
  · intro before f after hframes
    exact h.rows before f (after ++ more) (by rw [hframes, List.append_assoc, List.cons_append])

theorem answering_nil : Answering [] := by
  constructor
  · nofun
  · nofun
  · nofun
  · intro before f after hframes
    cases before <;> cases hframes

theorem Answering.concat {frames : List Frame} {f : Frame} (h : Answering frames)
    (hunready : f.kind ≠ 'Z')
    (hdescription : f.kind = 'T' → ∃ columns, Column.parseAll f.payload = .ok columns)
    (hfinished : f.kind = 'C' → ∃ tag, commandTag f.payload = .ok tag)
    (hrow : f.kind = 'D' →
      ∃ values, DataRow.parse f.payload = .ok values ∧ values.length = (described frames).length) :
    Answering (frames ++ [f]) := by
  constructor
  · exact List.forall_mem_append.mpr ⟨h.unready, List.forall_mem_singleton.mpr hunready⟩
  · exact List.forall_mem_append.mpr ⟨h.descriptions, List.forall_mem_singleton.mpr hdescription⟩
  · exact List.forall_mem_append.mpr ⟨h.finished, List.forall_mem_singleton.mpr hfinished⟩
  · intro before g after hframes
    cases after using List.reverseRecOn with
    | nil =>
        obtain ⟨rfl, hlast⟩ := List.append_inj' hframes rfl
        cases hlast
        exact hrow
    | append_singleton after last =>
        have hshorter : frames ++ [f] = (before ++ g :: after) ++ [last] := by
          rw [hframes, List.append_assoc, List.cons_append]
        obtain ⟨hframes, -⟩ := List.append_inj' hshorter rfl
        exact h.rows before g after hframes

theorem length_tags {frames : List Frame} (h : Answering frames) :
    (tags frames).length = frames.countP (·.kind = 'C') := by
  induction frames using List.reverseRecOn with
  | nil => rfl
  | append_singleton frames f ih =>
      rw [tags_concat, List.length_append, ih h.of_append, List.countP_append, List.countP_singleton]
      by_cases hkind : f.kind = 'C'
      · obtain ⟨tag, hparse⟩ :=
          h.finished f (List.mem_append_right _ (List.mem_singleton_self f)) hkind
        simp [Frame.finished?, hkind, hparse, Except.toOption]
      · simp [Frame.finished?, hkind]

theorem length_rows {frames : List Frame} (h : Answering frames) :
    (rows frames).length = frames.countP (·.kind = 'D') := by
  induction frames using List.reverseRecOn with
  | nil => rfl
  | append_singleton frames f ih =>
      rw [rows_concat, List.length_append, ih h.of_append, List.countP_append, List.countP_singleton]
      by_cases hkind : f.kind = 'D'
      · obtain ⟨values, hparse, -⟩ := h.rows frames f [] rfl hkind
        simp [Frame.values?, hkind, hparse, Except.toOption]
      · simp [Frame.values?, hkind]

theorem length_columns {frames : List Frame} (h : Answering frames) :
    ∀ row ∈ rows frames, row.columns.length = row.values.length := by
  induction frames using List.reverseRecOn with
  | nil => nofun
  | append_singleton frames f ih =>
      rw [rows_concat, List.forall_mem_append]
      refine ⟨ih h.of_append, ?_⟩
      by_cases hkind : f.kind = 'D'
      · obtain ⟨values, hparse, hlength⟩ := h.rows frames f [] rfl hkind
        simp [Frame.values?, hkind, hparse, Except.toOption, hlength]
      · simp [Frame.values?, hkind]

/-- One more frame adds to what is known exactly what it means. -/
theorem take_concat {frames : List Frame} {f : Frame} (h : Answering (frames ++ [f])) :
    (known frames).take f = .ok (known (frames ++ [f])) := by
  have hmem : f ∈ frames ++ [f] := List.mem_append_right _ (List.mem_singleton_self f)
  rw [known_concat]
  unfold Progress.take
  split
  next hletter =>
    have hkind : f.kind = 'T' := hletter
    obtain ⟨columns, hparse⟩ := h.descriptions f hmem hkind
    rw [hparse]
    simp [known, Frame.description?, Frame.values?, Frame.finished?, Frame.report?, hkind, hparse,
      Except.map, Except.toOption]
  next hletter =>
    have hkind : f.kind = 'D' := hletter
    obtain ⟨values, hparse, hlength⟩ := h.rows frames f [] rfl hkind
    have hadded : (known frames).addRow values = _ := if_pos hlength
    rw [hparse, show (.ok values >>= (known frames).addRow) = _ from hadded]
    simp [known, Frame.description?, Frame.values?, Frame.finished?, Frame.report?, hkind, hparse,
      Except.toOption]
  next hletter =>
    have hkind : f.kind = 'C' := hletter
    obtain ⟨tag, hparse⟩ := h.finished f hmem hkind
    rw [hparse]
    simp [known, Frame.description?, Frame.values?, Frame.finished?, Frame.report?, hkind, hparse,
      Except.map, Except.toOption]
  next hletter =>
    have hkind : f.kind = 'E' := hletter
    simp [known, Frame.description?, Frame.values?, Frame.finished?, Frame.report?, hkind]
  next hT hD hC hE =>
    have hkind : f.kind ≠ 'T' ∧ f.kind ≠ 'D' ∧ f.kind ≠ 'C' ∧ f.kind ≠ 'E' := ⟨hT, hD, hC, hE⟩
    simp [known, Frame.description?, Frame.values?, Frame.finished?, Frame.report?, hkind]

/-! ## Reading an answer -/

theorem tag_eq_readyTag_iff (f : Frame) : f.tag = readyTag ↔ f.kind = 'Z' :=
  (f.kind_eq_iff readyTag).symm

theorem rule_concat {frames : List Frame} {f : Frame} (h : Answering (frames ++ [f])) :
    rule (known frames) f = .wait (known (frames ++ [f])) := by
  have hunready : ¬f.tag = readyTag := by
    rw [tag_eq_readyTag_iff]
    exact h.unready f (List.mem_append_right _ (List.mem_singleton_self f))
  rw [rule, if_neg hunready, take_concat h]

theorem converse_known (frames : List Frame) {more : List Frame} {r : Octets} {l : Link}
    (h : Answering (frames ++ more)) (hfits : ∀ f ∈ more, f.Fits)
    (hunread : l.unread = more.flatMap Frame.encode ++ r) (hfree : l.interruption = none) :
    ∃ l', Link.Took (more.flatMap Frame.encode) l l' ∧
      converse rule (known frames) l = converse rule (known (frames ++ more)) l' := by
  induction more generalizing frames l with
  | nil =>
      rw [List.append_nil]
      exact ⟨l, .refl l, rfl⟩
  | cons f more ih =>
      rw [List.forall_mem_cons] at hfits
      rw [List.flatMap_cons, List.append_assoc] at hunread
      obtain ⟨l₁, hread, htook⟩ := Link.readFrame_took hfits.1 hunread hfree
      have hsplit : frames ++ f :: more = (frames ++ [f]) ++ more := by simp
      rw [hsplit] at h ⊢
      have hrule := rule_concat h.of_append
      obtain ⟨l', htook', hconverse⟩ := ih (frames ++ [f]) h hfits.2 (htook.unread_of_append hunread)
        (htook.interruption_eq.trans hfree)
      refine ⟨l', List.flatMap_cons ▸ htook.trans htook', ?_⟩
      rw [converse_of_read rule _ hread, hrule, ← hconverse]

end Query

/-- What a server sends in answer to one query. -/
structure Segment where
  body : List Frame
  ready : Frame
  answering : Query.Answering body
  ready_kind : ready.kind = 'Z'
  fits : ∀ f ∈ body ++ [ready], f.Fits

namespace Segment

def encode (s : Segment) : Octets :=
  s.body.flatMap Frame.encode ++ s.ready.encode

/-- What comes of a query that is answered by a segment. -/
def outcome (s : Segment) : Except Halt QueryResult :=
  match Query.firstError s.body with
  | some fault => .error (.fault fault)
  | none => .ok { rows := Query.rows s.body, tags := Query.tags s.body }

end Segment

namespace Query

def ask (sql : String) (l : Link) : Except Halt QueryResult × Link :=
  match run sql l with
  | .ok result l => (.ok result, l)
  | .error halt l => (.error halt, l)

def askAll : List String → Link → List (Except Halt QueryResult) × Link
  | [], l => ([], l)
  | sql :: sqls, l =>
      let (outcome, l) := ask sql l
      let (outcomes, l) := askAll sqls l
      (outcome :: outcomes, l)

def asked (sql : String) : Octets :=
  (ClientMessage.query sql).encode

theorem ask_segment {s : Segment} {r : Octets} {l : Link} {size : Nat} (sql : String)
    (hopen : l.Open ((asked sql).length + size)) (hunread : l.unread = s.encode ++ r) :
    ∃ l', ask sql l = (s.outcome, l') ∧ l'.unread = r ∧ l'.consumed = l.consumed ++ s.encode ∧
      l'.sent = l.sent ++ asked sql ∧ l'.Open size := by
  obtain ⟨l₁, htransmit, hwrote, hopen₁⟩ := Link.transmit_wrote (asked sql) hopen
  have hbody : l₁.unread = s.body.flatMap Frame.encode ++ (s.ready.encode ++ r) := by
    rw [hwrote.unread_eq, hunread, Segment.encode, List.append_assoc]
  have hfits := List.forall_mem_append.mp s.fits
  obtain ⟨l₂, htook₂, hconverse⟩ :=
    converse_known [] s.answering hfits.1 hbody hopen₁.interruption_eq
  have hready := htook₂.unread_of_append hbody
  obtain ⟨l₃, hread, htook₃⟩ := Link.readFrame_took (hfits.2 s.ready (List.mem_singleton_self _))
    hready (hopen₁.took htook₂).interruption_eq
  have hrun : run sql l = converse rule (known s.body) l₂ :=
    (Link.bind_of_ok htransmit).trans hconverse
  have hasked : ask sql l = (s.outcome, l₃) := by
    rw [ask, hrun, converse_of_read rule _ hread, rule,
      if_pos ((tag_eq_readyTag_iff s.ready).mpr s.ready_kind), Segment.outcome, known]
    cases firstError s.body <;> rfl
  refine ⟨l₃, hasked, htook₃.unread_of_append hready, ?_, ?_, (hopen₁.took htook₂).took htook₃⟩
  · rw [htook₃.consumed_eq, htook₂.consumed_eq, hwrote.consumed_eq, List.append_assoc]
    rfl
  · rw [htook₃.sent_eq, htook₂.sent_eq, hwrote.sent_eq]

theorem askAll_segments {sqls : List String} {segments : List Segment} {r : Octets} {l : Link}
    {size : Nat} (hlength : sqls.length = segments.length)
    (hopen : l.Open ((sqls.flatMap asked).length + size))
    (hunread : l.unread = segments.flatMap Segment.encode ++ r) :
    ∃ l', askAll sqls l = (segments.map Segment.outcome, l') ∧ l'.unread = r ∧
      l'.consumed = l.consumed ++ segments.flatMap Segment.encode ∧
      l'.sent = l.sent ++ sqls.flatMap asked ∧ l'.Open size := by
  induction sqls generalizing segments l with
  | nil =>
      have hnone : segments = [] := List.length_eq_zero_iff.mp hlength.symm
      subst hnone
      refine ⟨l, rfl, hunread, (List.append_nil _).symm, (List.append_nil _).symm, ?_⟩
      rwa [List.flatMap_nil, List.length_nil, Nat.zero_add] at hopen
  | cons sql sqls ih =>
      cases segments with
      | nil => cases hlength
      | cons s segments =>
          rw [List.flatMap_cons, List.length_append, Nat.add_assoc] at hopen
          rw [List.flatMap_cons, List.append_assoc] at hunread
          obtain ⟨l₁, hasked, hunread₁, hconsumed₁, hsent₁, hopen₁⟩ := ask_segment sql hopen hunread
          obtain ⟨l₂, hall, hunread₂, hconsumed₂, hsent₂, hopen₂⟩ :=
            ih (Nat.succ.inj hlength) hopen₁ hunread₁
          refine ⟨l₂, ?_, hunread₂, ?_, ?_, hopen₂⟩
          · simp only [askAll, hasked, hall, List.map_cons]
          · rw [hconsumed₂, hconsumed₁, List.append_assoc, List.flatMap_cons]
          · rw [hsent₂, hsent₁, List.append_assoc, List.flatMap_cons]

/-- **Queries never get out of step.**  However the server's stream is cut into reads, as long as it
is one segment for each query, and whatever comes after those: each query takes exactly its segment
off the stream, and what comes of it is told by that segment alone. -/
theorem queries_stay_in_step (sqls : List String) (segments : List Segment) (rest : Octets)
    (l : Link) (hlength : sqls.length = segments.length)
    (hopen : l.Open (sqls.flatMap asked).length)
    (hunread : l.unread = segments.flatMap Segment.encode ++ rest) :
    (∀ i ≤ sqls.length,
      (askAll (sqls.take i) l).1 = (segments.take i).map Segment.outcome ∧
        (askAll (sqls.take i) l).2.unread = (segments.drop i).flatMap Segment.encode ++ rest ∧
        (askAll (sqls.take i) l).2.consumed =
          l.consumed ++ (segments.take i).flatMap Segment.encode ∧
        (askAll (sqls.take i) l).2.sent = l.sent ++ (sqls.take i).flatMap asked) ∧
      ∀ s ∈ segments, (rows s.body).length = s.body.countP (·.kind = 'D') ∧
        (tags s.body).length = s.body.countP (·.kind = 'C') ∧
        ∀ row ∈ rows s.body, row.columns.length = row.values.length := by
  refine ⟨fun i hi => ?_, fun s _ => ?_⟩
  · have hsplit : sqls.flatMap asked = (sqls.take i).flatMap asked ++ (sqls.drop i).flatMap asked := by
      rw [← List.flatMap_append, List.take_append_drop]
    have hstream : l.unread = (segments.take i).flatMap Segment.encode ++
        ((segments.drop i).flatMap Segment.encode ++ rest) := by
      rw [hunread, ← List.append_assoc, ← List.flatMap_append, List.take_append_drop]
    rw [hsplit, List.length_append] at hopen
    have htaken : (sqls.take i).length = (segments.take i).length := by
      rw [List.length_take, List.length_take, hlength]
    obtain ⟨l', hall, hunread', hconsumed, hsent, -⟩ := askAll_segments htaken hopen hstream
    rw [hall]
    exact ⟨rfl, hunread', hconsumed, hsent⟩
  · exact ⟨length_rows s.answering, length_tags s.answering, length_columns s.answering⟩

def refusal : Segment where
  body := [⟨69, ofString "Mno" ++ [0, 0]⟩]
  ready := ⟨90, [73]⟩
  answering := answering_nil.concat (by decide) (absurd · (by decide)) (absurd · (by decide))
    (absurd · (by decide))
  ready_kind := by decide
  fits := by decide

def single : Segment where
  body := [⟨84, [0, 1, 97, 0] ++ List.replicate 18 0⟩, ⟨68, [0, 1, 0, 0, 0, 1, 49]⟩,
    ⟨67, ofString "SELECT 1" ++ [0]⟩]
  ready := ⟨90, [73]⟩
  answering :=
    ((answering_nil.concat (by decide) (fun _ => ⟨_, rfl⟩) (absurd · (by decide))
        (absurd · (by decide))).concat (by decide) (absurd · (by decide)) (absurd · (by decide))
        (fun _ => ⟨_, rfl, rfl⟩)).concat (by decide) (absurd · (by decide))
        (fun _ => ⟨_, rfl⟩) (absurd · (by decide))
  ready_kind := by decide
  fits := by decide

theorem queries_stay_in_step_after_error :
    let l : Link :=
      { arrived := [refusal.encode.take 3, [], refusal.encode.drop 3 ++ single.encode.take 9,
          single.encode.drop 9 ++ [90]] }
    ∃ fault row, (askAll ["SELECT nothing", "SELECT 1"] l).1 =
      [.error (.fault fault), .ok { rows := [row], tags := ["SELECT 1"] }] := by
  intro l
  have hstream : l.unread = [refusal, single].flatMap Segment.encode ++ [90] := by
    simp only [l, Link.unread, List.flatten_cons, List.flatten_nil, List.flatMap_cons,
      List.flatMap_nil, List.nil_append, List.append_nil, List.append_assoc]
    rw [← List.append_assoc (refusal.encode.take 3), List.take_append_drop,
      ← List.append_assoc (single.encode.take 9), List.take_append_drop]
  have hopen : l.Open (["SELECT nothing", "SELECT 1"].flatMap asked).length :=
    .of_unlimited rfl rfl rfl _
  obtain ⟨hsteps, -⟩ := queries_stay_in_step ["SELECT nothing", "SELECT 1"] [refusal, single] [90]
    l rfl hopen hstream
  exact ⟨_, _, (hsteps 2 (by decide)).1.trans rfl⟩

end Query

end PgFrontend
