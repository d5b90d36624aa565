import PgFrontend.Proofs.Session.Creation
import PgFrontend.Proofs.Text.Utf8
import PgFrontend.Proofs.Wire.Messages
/-!
# The choice of a schema as a server reads it

A server reads the text of a query up to the first zero octet, and takes it apart into words,
string literals and symbols.  In a literal a doubled quote is one quote, and everything but a quote
stands for itself.  `lexFrom_double` says that a text whose quotes are doubled stays in its literal,
so that the name of a schema can not become anything else; a zero character in it hides the closing
quote.
-/

namespace PgFrontend

open Octets

/-! ## Statements -/

namespace Sql

inductive Token
  | word (text : String)
  | literal (value : String)
  /-- A literal in which the statement ends. -/
  | unclosed (value : String)
  | symbol (c : Char)
  deriving Repr, DecidableEq

/-- How far a server has come with a token. -/
inductive Lexing
  | between
  | word (read : List Char)
  | literal (read : List Char)
  /-- After a quote in a literal, which closes the literal unless another quote follows. -/
  | quoted (read : List Char)

namespace Lexing

/-- What a character outside of words and literals completes, and what it begins. -/
def start (c : Char) : List Token × Lexing :=
  if c.isWhitespace then ([], between)
  else if c = '\'' then ([], literal [])
  else if c.isAlphanum || c = '_' then ([], word [c])
  else ([.symbol c], between)

def step : Lexing → Char → List Token × Lexing
  | between, c => start c
  | word read, c =>
      if c.isAlphanum || c = '_' then ([], word (read ++ [c]))
      else (.word (String.ofList read) :: (start c).1, (start c).2)
  | literal read, c => ([], if c = '\'' then quoted read else literal (read ++ [c]))
  | quoted read, c =>
      if c = '\'' then ([], literal (read ++ [c]))
      else (.literal (String.ofList read) :: (start c).1, (start c).2)

/-- What the end of the statement completes. -/
def finish : Lexing → List Token
  | between => []
  | word read => [.word (String.ofList read)]
  | literal read => [.unclosed (String.ofList read)]
  | quoted read => [.literal (String.ofList read)]

end Lexing

def lexFrom : Lexing → List Char → List Token
  | state, [] => state.finish
  | state, c :: cs => (state.step c).1 ++ lexFrom (state.step c).2 cs

def lex (s : String) : List Token :=
  lexFrom .between s.toList

/-- A text with each quote twice. -/
def double (cs : List Char) : List Char :=
  cs.flatMap fun c => if c = '\'' then ['\'', '\''] else [c]

theorem lexFrom_double (read cs rest : List Char) :
    lexFrom (.literal read) (double cs ++ rest) = lexFrom (.literal (read ++ cs)) rest := by
  induction cs generalizing read with
  | nil => rw [double, List.flatMap_nil, List.nil_append, List.append_nil]
  | cons c cs ih =>
      have hih := ih (read ++ [c])
      rw [List.append_assoc, List.singleton_append] at hih
      rw [double, List.flatMap_cons, ← double, List.append_assoc, ← hih]
      by_cases hquote : c = '\''
      · subst hquote
        rfl
      · simp only [if_neg hquote, List.singleton_append, lexFrom, Lexing.step, List.nil_append]

theorem lexFrom_opening (rest : List Char) :
    lexFrom .between ("SET SCHEMA '".toList ++ rest) =
      .word "SET" :: .word "SCHEMA" :: lexFrom (.literal []) rest := rfl

end Sql

/-! ## What arrives of a query -/

namespace Query

/-- The text of a query as a server reads it: up to the first zero octet of its payload. -/
def readText (payload : Octets) : Option String :=
  (cstring? payload).bind fun (text, _) => (Utf8.decode text).toOption

/-- The characters before the first zero character. -/
def upToZero (cs : List Char) : List Char :=
  cs.takeWhile (· ≠ '\x00')

theorem upToZero_append {cs : List Char} (h : '\x00' ∉ cs) (rest : List Char) :
    upToZero (cs ++ rest) = cs ++ upToZero rest := by
  apply List.takeWhile_append_of_pos
  intro c hc
  have hne : c ≠ '\x00' := fun hzero => h (hzero ▸ hc)
  exact decide_eq_true hne

theorem upToZero_append_zero {cs : List Char} (h : '\x00' ∉ cs) (rest : List Char) :
    upToZero (cs ++ '\x00' :: rest) = cs := by
  rw [upToZero_append h]
  exact List.append_nil cs

theorem zero_not_mem_upToZero (cs : List Char) : 0 ∉ ofString (String.ofList (upToZero cs)) := by
  apply Utf8.zero_not_mem_ofString
  rw [String.toList_ofList]
  intro hmem
  have hne := List.all_eq_true.mp List.all_takeWhile _ hmem
  simp at hne

theorem exists_ofChars_upToZero (cs : List Char) :
    ∃ rest, ofChars cs ++ [0] = ofChars (upToZero cs) ++ 0 :: rest := by
  induction cs with
  | nil => exact ⟨[], rfl⟩
  | cons c cs ih =>
      by_cases hzero : c = '\x00'
      · subst hzero
        exact ⟨ofChars cs ++ [0], rfl⟩
      · obtain ⟨rest, hrest⟩ := ih
        refine ⟨rest, ?_⟩
        rw [upToZero, List.takeWhile_cons_of_pos (by simpa using hzero), ← upToZero]
        simp only [ofChars, List.flatMap_cons, List.append_assoc] at hrest ⊢
        rw [hrest]

/-- What a server reads of a query ends before its first zero character. -/
theorem readText_payload (sql : String) :
    readText (ClientMessage.query sql).payload = some (String.ofList (upToZero sql.toList)) := by
  obtain ⟨rest, hrest⟩ := exists_ofChars_upToZero sql.toList
  have hpayload : (ClientMessage.query sql).payload =
      ofString (String.ofList (upToZero sql.toList)) ++ 0 :: rest := by
    rw [ofString, String.toList_ofList, ← hrest]
    rfl
  rw [readText, hpayload, cstring?_append rest (zero_not_mem_upToZero sql.toList), Option.bind_some]
  dsimp only
  rw [Utf8.decode_ofString]
  rfl

/-- Whatever comes of a query, all of it goes out first if there is room for it. -/
theorem sent_run {l : Link} (sql : String) (hopen : l.Open (asked sql).length) :
    l.sent ++ asked sql <+: (Link.linkAfter (run sql l)).sent := by
  have hroom : l.Open ((asked sql).length + 0) := hopen
  obtain ⟨l₁, htransmit, hwrote, -⟩ := Link.transmit_wrote _ hroom
  have hrun : run sql l = converse rule {} l₁ := Link.bind_of_ok htransmit
  rw [hrun, ← hwrote.sent_eq]
  exact (converse_resumable rule {}).steady.sent_mono l₁

end Query

namespace Factory

open Link Sql Query

theorem toList_schemaStatement (schema : String) :
    (schemaStatement schema).toList =
      "SET SCHEMA '".toList ++ (double schema.toList ++ ['\'']) := by
  have hstatement : schemaStatement schema =
      String.ofList ("SET SCHEMA '".toList ++ double schema.toList ++ ['\'']) := rfl
  rw [hstatement, String.toList_ofList, List.append_assoc]

theorem zero_not_mem_double {cs : List Char} (h : '\x00' ∉ cs) : '\x00' ∉ double cs := by
  intro hmem
  obtain ⟨c, hc, hzero⟩ := List.mem_flatMap.mp hmem
  by_cases hquote : c = '\''
  · rw [if_pos hquote] at hzero
    exact absurd hzero (by decide)
  · rw [if_neg hquote, List.mem_singleton] at hzero
    exact h (hzero ▸ hc)

/-- Doubling quotes keeps what stands before the first zero character before it. -/
theorem upToZero_double {cs : List Char} (h : '\x00' ∈ cs) (rest : List Char) :
    upToZero (double cs ++ rest) = double (upToZero cs) := by
  obtain ⟨before, after, rfl, hbefore⟩ := List.eq_append_cons_of_mem h
  have hdouble : double (before ++ '\x00' :: after) ++ rest =
      double before ++ '\x00' :: (double after ++ rest) := by
    rw [double, List.flatMap_append, List.append_assoc]
    rfl
  rw [hdouble, upToZero_append_zero (zero_not_mem_double hbefore), upToZero_append_zero hbefore]

/-- What a server reads of the statement that chooses a schema: one literal, which is closed unless
the name has a zero character. -/
theorem lex_upToZero_schemaStatement (schema : String) :
    lexFrom .between (upToZero (schemaStatement schema).toList) =
      [.word "SET", .word "SCHEMA",
        if '\x00' ∈ schema.toList then .unclosed (String.ofList (upToZero schema.toList))
        else .literal schema] := by
  rw [toList_schemaStatement, upToZero_append (by decide), lexFrom_opening]
  split
  next hzero =>
    have hcut := lexFrom_double [] (upToZero schema.toList) []
    rw [List.append_nil] at hcut
    rw [upToZero_double hzero, hcut]
    rfl
  next hnone =>
    rw [upToZero_append (zero_not_mem_double hnone), lexFrom_double, List.nil_append]
    show [_, _, Token.literal (String.ofList schema.toList)] = _
    rw [String.ofList_toList]

/-- The choice of a schema sends its statement right after the probe. -/
theorem sent_schemaStatement {c : Config} {nonce schema : String} {l l₁ l₂ : Link}
    {outcome : Outcome} {result : QueryResult} (hschema : c.schema = some schema)
    (hopened : openSession c nonce l = .ok outcome l₁)
    (hprobed : Query.run isolationProbe l₁ = .ok result l₂)
    (hopen : l₂.Open (asked (schemaStatement schema)).length) :
    l₂.sent ++ asked (schemaStatement schema) <+: (linkAfter (prepare c nonce l)).sent := by
  rw [prepare_eq, bind_of_ok hopened, bind_of_ok (setUp_of_ok hprobed), linkAfter_bind_pure,
    chooseSchema, hschema]
  dsimp only
  rw [linkAfter_bind_pure, linkAfter_setUp]
  exact Query.sent_run _ hopen

/-- **A schema name can not escape its literal.**  Whatever the name is, the query that chooses it
goes out whole right after the probe, and what a server reads of it are two words and one literal.
The literal is closed and stands for the name just if that has no zero character; otherwise all that
arrives of the name is in a literal that is never closed. -/
theorem schema_stays_in_literal (schema : String) :
    ∃ (frame : Frame) (text : String), frame.kind = 'Q' ∧
      (∀ {c nonce l l₁ l₂ outcome result}, c.schema = some schema →
        openSession c nonce l = .ok outcome l₁ → Query.run isolationProbe l₁ = .ok result l₂ →
        l₂.Open frame.encode.length →
        l₂.sent ++ frame.encode <+: (linkAfter (prepare c nonce l)).sent) ∧
      readText frame.payload = some text ∧
      (lex text = [.word "SET", .word "SCHEMA", .literal schema] ↔ '\x00' ∉ schema.toList) ∧
      ('\x00' ∈ schema.toList → lex text =
        [.word "SET", .word "SCHEMA", .unclosed (String.ofList (upToZero schema.toList))]) := by
  let query : ClientMessage := .query (schemaStatement schema)
  have hframe : Query.asked (schemaStatement schema) = query.frame.encode := query.encode_eq
  refine ⟨query.frame, _, rfl, ?_, readText_payload _, ?_, ?_⟩
  · intro c nonce l l₁ l₂ outcome result hschema hopened hprobed hopen
    rw [← hframe] at hopen ⊢
    exact sent_schemaStatement hschema hopened hprobed hopen
  · rw [lex, String.toList_ofList, lex_upToZero_schemaStatement]
    split
    next hzero => simpa using hzero
    next hnone => simpa using hnone
  · intro hzero
    rw [lex, String.toList_ofList, lex_upToZero_schemaStatement, if_pos hzero]

end Factory

end PgFrontend
