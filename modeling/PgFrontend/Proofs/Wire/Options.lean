import PgFrontend.Wire.Startup
/-!
# Session options as a server splits them

A server cuts the options of a startup packet into arguments at white space, and takes the character
after a backslash as it stands.  Before each space and backslash of a value a backslash is written,
so these stay in their argument; the other white space is written as it is.
`splitFrom_intercalate` says that options without such white space come back one by one, and
`unbroken_of_mem_splitFrom` that no argument can have any.
-/

namespace PgFrontend

namespace Arguments

/-- The white space that has no backslash before it where a value has it. -/
def breaks : List Char :=
  ['\t', '\n', '\x0b', '\x0c', '\r']

/-- The white space that parts arguments. -/
def isSpacing (c : Char) : Bool :=
  c = ' ' || breaks.contains c

/-- How far a server has come with an argument. -/
inductive Reading
  | between
  | within (read : List Char)
  /-- The next character is taken as it stands. -/
  | escaped (read : List Char)

/-- The arguments in a text, from where a server has come. -/
def splitFrom : Reading → List Char → List (List Char)
  | .between, [] => []
  | .within read, [] => [read]
  | .escaped read, [] => [read]
  | .between, c :: cs =>
      if isSpacing c then splitFrom .between cs
      else if c = '\\' then splitFrom (.escaped []) cs
      else splitFrom (.within [c]) cs
  | .within read, c :: cs =>
      if isSpacing c then read :: splitFrom .between cs
      else if c = '\\' then splitFrom (.escaped read) cs
      else splitFrom (.within (read ++ [c])) cs
  | .escaped read, c :: cs => splitFrom (.within (read ++ [c])) cs

def split (s : String) : List String :=
  (splitFrom .between s.toList).map String.ofList

/-- A character that is taken as it stands, and that is no white space. -/
def Plain (c : Char) : Prop :=
  ¬isSpacing c ∧ c ≠ '\\'

instance : DecidablePred Plain :=
  fun c => inferInstanceAs (Decidable (¬isSpacing c ∧ c ≠ '\\'))

/-- What holds of each of finitely many characters is found by looking at them. -/
theorem forall_mem_of_all {p : Char → Prop} [DecidablePred p] {cs : List Char}
    (h : cs.all (fun c => decide (p c)) = true) : ∀ c ∈ cs, p c :=
  fun c hc => of_decide_eq_true (List.all_eq_true.mp h c hc)

/-- Letters, digits, underscores and dots are plain. -/
theorem plain_of_isAlphanum {c : Char} (h : c.isAlphanum = true ∨ c = '_' ∨ c = '.') : Plain c := by
  constructor
  · intro hspacing
    have hmem : c ∈ [' ', '\t', '\n', '\x0b', '\x0c', '\r'] := by
      simpa [isSpacing, breaks] using hspacing
    have hnone : ∀ c ∈ [' ', '\t', '\n', '\x0b', '\x0c', '\r'],
        ¬(c.isAlphanum = true ∨ c = '_' ∨ c = '.') :=
      forall_mem_of_all (by decide)
    exact hnone c hmem h
  · rintro rfl
    revert h
    decide

/-! ## Texts that stay together -/

theorem splitFrom_plain {word : List Char} (h : ∀ c ∈ word, Plain c) (read rest : List Char) :
    splitFrom (.within read) (word ++ rest) = splitFrom (.within (read ++ word)) rest := by
  induction word generalizing read with
  | nil => rw [List.nil_append, List.append_nil]
  | cons c word ih =>
      obtain ⟨⟨hspacing, hbackslash⟩, hword⟩ := List.forall_mem_cons.mp h
      rw [List.cons_append, splitFrom, if_neg hspacing, if_neg hbackslash, ih hword,
        List.append_assoc, List.singleton_append]

theorem splitFrom_between_plain {word : List Char} (hne : word ≠ []) (h : ∀ c ∈ word, Plain c)
    (rest : List Char) :
    splitFrom .between (word ++ rest) = splitFrom (.within word) rest := by
  cases word with
  | nil => exact absurd rfl hne
  | cons c word =>
      obtain ⟨⟨hspacing, hbackslash⟩, hword⟩ := List.forall_mem_cons.mp h
      rw [List.cons_append, splitFrom, if_neg hspacing, if_neg hbackslash,
        splitFrom_plain hword, List.singleton_append]

/-- A value comes back as it was before it was written, if none of its characters is a break. -/
theorem splitFrom_escapeValue {value : List Char} (h : ∀ c ∈ value, c ∉ breaks)
    (read rest : List Char) :
    splitFrom (.within read) (StartupMessage.escapeValue value ++ rest) =
      splitFrom (.within (read ++ value)) rest := by
  induction value generalizing read with
  | nil => rw [StartupMessage.escapeValue, List.nil_append, List.append_nil]
  | cons c value ih =>
      obtain ⟨hbreak, hvalue⟩ := List.forall_mem_cons.mp h
      rw [StartupMessage.escapeValue]
      by_cases hescaped : c = ' ' ∨ c = '\\'
      · rw [if_pos hescaped, List.cons_append, List.cons_append, splitFrom, if_neg (by decide),
          if_pos rfl, splitFrom, ih hvalue, List.append_assoc, List.singleton_append]
      · obtain ⟨hspace, hbackslash⟩ := not_or.mp hescaped
        have hspacing : ¬isSpacing c := by
          simp [isSpacing, hspace, hbreak]
        rw [if_neg hescaped, List.cons_append, splitFrom, if_neg hspacing,
          if_neg hbackslash, ih hvalue, List.append_assoc, List.singleton_append]

/-! ## Options -/

/-- The argument that sets an option. -/
def setting (option : String × String) : List Char :=
  option.1.toList ++ '=' :: option.2.toList

def optionFlag : List Char := ['-', 'c']

/-- An option as it is written. -/
def written (option : String × String) : List Char :=
  optionFlag ++ ' ' :: ((option.1.toList ++ ['=']) ++
    StartupMessage.escapeValue option.2.toList)

theorem toList_renderOption (option : String × String) :
    (StartupMessage.renderOption option).toList = written option := by
  simp [StartupMessage.renderOption, written, optionFlag]

def Unbroken (cs : List Char) : Prop :=
  ∀ c ∈ cs, c ∉ breaks

variable {option : String × String} {options : List (String × String)}

theorem splitFrom_written (hkey : ∀ c ∈ option.1.toList, Plain c)
    (hvalue : Unbroken option.2.toList) (rest : List Char) :
    splitFrom .between (written option ++ rest) =
      optionFlag :: splitFrom (.within (setting option)) rest := by
  have hword : ∀ c ∈ option.1.toList ++ ['='], Plain c :=
    List.forall_mem_append.mpr ⟨hkey, forall_mem_of_all (by decide)⟩
  have hne : option.1.toList ++ ['='] ≠ [] := by
    simp
  have hflag : ∀ c ∈ optionFlag, Plain c :=
    forall_mem_of_all (by decide)
  rw [written, List.append_assoc, splitFrom_between_plain (by decide) hflag, List.cons_append,
    splitFrom, if_pos (by decide), List.append_assoc, splitFrom_between_plain hne hword,
    splitFrom_escapeValue hvalue, setting, List.append_assoc, List.singleton_append]

theorem splitFrom_intercalate (hne : options ≠ [])
    (hkeys : ∀ option ∈ options, ∀ c ∈ option.1.toList, Plain c)
    (hvalues : ∀ option ∈ options, Unbroken option.2.toList) :
    splitFrom .between ([' '].intercalate (options.map written)) =
      options.flatMap fun option => [optionFlag, setting option] := by
  induction options with
  | nil => exact absurd rfl hne
  | cons option options ih =>
      obtain ⟨hkey, hkeys⟩ := List.forall_mem_cons.mp hkeys
      obtain ⟨hvalue, hvalues⟩ := List.forall_mem_cons.mp hvalues
      cases options with
      | nil =>
          have hlast := splitFrom_written hkey hvalue []
          rw [List.append_nil] at hlast
          rw [List.map_singleton, List.intercalate_singleton, hlast]
          rfl
      | cons next options =>
          have hothers := ih (List.cons_ne_nil _ _) hkeys hvalues
          rw [List.map_cons, List.map_cons, List.intercalate_cons_cons, List.append_assoc,
            splitFrom_written hkey hvalue, List.singleton_append, splitFrom, if_pos (by decide),
            ← List.map_cons, hothers]
          rfl

/-! ## Texts that are taken apart -/

/-- A text in which no backslash stands before a break. -/
inductive Guarded : List Char → Prop
  | nil : Guarded []
  | cons {c : Char} {cs : List Char} (hc : c ≠ '\\') (h : Guarded cs) : Guarded (c :: cs)
  | escape {c : Char} {cs : List Char} (hc : c ∉ breaks) (h : Guarded cs) :
      Guarded ('\\' :: c :: cs)

theorem Guarded.append {cs ds : List Char} (h : Guarded cs) (h' : Guarded ds) :
    Guarded (cs ++ ds) := by
  induction h with
  | nil => exact h'
  | cons hc _ ih => exact .cons hc ih
  | escape hc _ ih => exact .escape hc ih

theorem guarded_of_not_mem {cs : List Char} (h : ∀ c ∈ cs, c ≠ '\\') : Guarded cs := by
  induction cs with
  | nil => exact .nil
  | cons c cs ih =>
      obtain ⟨hc, hcs⟩ := List.forall_mem_cons.mp h
      exact .cons hc (ih hcs)

theorem guarded_escapeValue (value : List Char) : Guarded (StartupMessage.escapeValue value) := by
  induction value with
  | nil => exact .nil
  | cons c value ih =>
      rw [StartupMessage.escapeValue]
      split
      next hescaped =>
        refine .escape ?_ ih
        rcases hescaped with rfl | rfl <;> decide
      next hplain => exact .cons (not_or.mp hplain).2 ih

theorem guarded_written (hkey : ∀ c ∈ option.1.toList, Plain c) : Guarded (written option) := by
  refine .append (guarded_of_not_mem (forall_mem_of_all (by decide))) (.cons (by decide) ?_)
  refine .append (guarded_of_not_mem ?_) (guarded_escapeValue _)
  exact List.forall_mem_append.mpr ⟨fun c hc => (hkey c hc).2, forall_mem_of_all (by decide)⟩

theorem guarded_intercalate {pieces : List (List Char)} (h : ∀ piece ∈ pieces, Guarded piece) :
    Guarded ([' '].intercalate pieces) := by
  induction pieces with
  | nil => exact .nil
  | cons piece pieces ih =>
      obtain ⟨hpiece, hpieces⟩ := List.forall_mem_cons.mp h
      cases pieces with
      | nil =>
          rw [List.intercalate_singleton]
          exact hpiece
      | cons next pieces =>
          rw [List.intercalate_cons_cons, List.append_assoc]
          exact hpiece.append (.cons (by decide) (ih hpieces))

theorem Unbroken.concat {read : List Char} {c : Char} (h : Unbroken read) (hc : c ∉ breaks) :
    Unbroken (read ++ [c]) :=
  List.forall_mem_append.mpr ⟨h, List.forall_mem_singleton.mpr hc⟩

theorem not_mem_breaks_of_not_isSpacing {c : Char} (h : ¬isSpacing c) : c ∉ breaks := by
  intro hbreak
  exact h (by simp [isSpacing, hbreak])

/-- No argument of a text in which no backslash stands before a break has a break: a break that is
met ends the argument. -/
theorem unbroken_of_mem_splitFrom {cs : List Char} (h : Guarded cs) :
    (∀ argument ∈ splitFrom .between cs, Unbroken argument) ∧
      ∀ read, Unbroken read → ∀ argument ∈ splitFrom (.within read) cs, Unbroken argument := by
  have hnone : Unbroken [] := List.forall_mem_nil _
  induction h with
  | nil =>
      refine ⟨List.forall_mem_nil _, fun read hread => ?_⟩
      exact List.forall_mem_singleton.mpr hread
  | @cons c cs hc _ ih =>
      by_cases hspacing : isSpacing c
      · simp only [splitFrom, if_pos hspacing]
        exact ⟨ih.1, fun read hread => List.forall_mem_cons.mpr ⟨hread, ih.1⟩⟩
      · have hbreak := not_mem_breaks_of_not_isSpacing hspacing
        simp only [splitFrom, if_neg hspacing, if_neg hc]
        exact ⟨ih.2 [c] (hnone.concat hbreak), fun read hread => ih.2 _ (hread.concat hbreak)⟩
  | @escape c cs hc _ ih =>
      have hspacing : ¬isSpacing '\\' := by
        decide
      simp only [splitFrom, if_neg hspacing, if_true]
      exact ⟨ih.2 _ (hnone.concat hc), fun read hread => ih.2 _ (hread.concat hc)⟩

end Arguments

namespace StartupMessage

open Arguments

/-- The arguments by which options are set. -/
def arguments (options : List (String × String)) : List String :=
  options.flatMap fun (key, value) => ["-c", key ++ "=" ++ value]

theorem arguments_eq (options : List (String × String)) :
    arguments options =
      (options.flatMap fun option => [optionFlag, setting option]).map String.ofList := by
  have hflag : String.ofList optionFlag = "-c" := rfl
  have hsetting (option : String × String) :
      String.ofList (setting option) = option.1 ++ "=" ++ option.2 := by
    rw [← String.toList_inj]
    simp [setting]
  simp only [arguments, List.map_flatMap, List.map_cons, List.map_nil, hflag, hsetting]

theorem toList_rendered (options : List (String × String)) :
    (String.intercalate " " (options.map renderOption)).toList =
      [' '].intercalate (options.map written) := by
  have hpieces : (options.map renderOption).map String.toList = options.map written := by
    rw [List.map_map]
    exact List.map_congr_left fun option _ => toList_renderOption option
  rw [String.toList_intercalate, hpieces]
  rfl

/-- **Session options survive the server's splitting just if no value has a tab or a line break.**
Whatever spaces and backslashes the values have, and wherever, a server that splits the rendered
options gets two arguments for each option, in order, and no others; with any other white space in a
value it does not. -/
theorem split_renderedOptions_iff (m : StartupMessage) (hne : m.options ≠ [])
    (hkeys : ∀ option ∈ m.options, ∀ c ∈ option.1.toList, Plain c) :
    ∃ rendered, m.renderedOptions = some rendered ∧
      (split rendered = m.options.flatMap (fun (key, value) => ["-c", key ++ "=" ++ value]) ↔
        ∀ option ∈ m.options, ∀ c ∈ option.2.toList, c ∉ ['\t', '\n', '\x0b', '\x0c', '\r']) := by
  have hrendered := toList_rendered m.options
  refine ⟨String.intercalate " " (m.options.map renderOption), ?_, ?_⟩
  · rw [renderedOptions, if_neg (by simpa using hne)]
  show split _ = arguments m.options ↔ ∀ option ∈ m.options, Unbroken option.2.toList
  rw [split, hrendered, arguments_eq]
  constructor
  · intro hsplit option hoption
    have hguarded : Guarded ([' '].intercalate (m.options.map written)) :=
      guarded_intercalate (List.forall_mem_map.mpr fun other hother =>
        guarded_written (hkeys other hother))
    have hsame := (List.map_inj_right fun _ _ => String.ofList_injective).mp hsplit
    have hmem :
        setting option ∈ splitFrom .between ([' '].intercalate (m.options.map written)) := by
      rw [hsame]
      exact List.mem_flatMap.mpr ⟨option, hoption, by simp⟩
    have hunbroken := (unbroken_of_mem_splitFrom hguarded).1 _ hmem
    exact fun c hc => hunbroken c (List.mem_append_right _ (List.mem_cons_of_mem _ hc))
  · intro hvalues
    rw [splitFrom_intercalate hne hkeys hvalues]

/-- Spaces and backslashes at both ends of a value, next to each other, and before the next
option. -/
theorem split_renderedOptions_iff_backslashes :
    let m : StartupMessage := ⟨"u", "d", "a", [("search_path", " a \\"), ("x.y1", "\\\\ ")]⟩
    m.options ≠ [] ∧ (∀ option ∈ m.options, ∀ c ∈ option.1.toList, Plain c) ∧
      ∃ rendered, m.renderedOptions = some rendered ∧
        split rendered = ["-c", "search_path= a \\", "-c", "x.y1=\\\\ "] := by
  intro m
  have hne : m.options ≠ [] := by
    decide
  have hwords : ∀ option ∈ m.options, ∀ c ∈ option.1.toList,
      c.isAlphanum = true ∨ c = '_' ∨ c = '.' :=
    List.forall_mem_cons.mpr ⟨forall_mem_of_all (by decide),
      List.forall_mem_singleton.mpr (forall_mem_of_all (by decide))⟩
  have hkeys : ∀ option ∈ m.options, ∀ c ∈ option.1.toList, Plain c :=
    fun option hoption c hc => plain_of_isAlphanum (hwords option hoption c hc)
  have hvalues : ∀ option ∈ m.options, ∀ c ∈ option.2.toList,
      c ∉ ['\t', '\n', '\x0b', '\x0c', '\r'] :=
    List.forall_mem_cons.mpr ⟨forall_mem_of_all (by decide),
      List.forall_mem_singleton.mpr (forall_mem_of_all (by decide))⟩
  obtain ⟨rendered, hrendered, hsplit⟩ := split_renderedOptions_iff m hne hkeys
  exact ⟨hne, hkeys, rendered, hrendered, hsplit.mpr hvalues⟩

end StartupMessage

end PgFrontend
