import PgFrontend.Proofs.Text.Utf8
import PgFrontend.Proofs.Wire.Transfers
import PgFrontend.Wire.Startup
/-!
# Startup packets as a server reads them

After its length and the version, a startup packet is a run of names and values, each up to its zero
octet, and a server reads them until a name is empty.  `readPairs_eq_some_iff` says which octets are
read as which pairs.  Nothing is checked when a packet is written, so the configured texts arrive
just if a server does not find an end in one of them.
-/

namespace PgFrontend

open Octets

namespace Startup

def writePair (pair : Octets × Octets) : Octets :=
  pair.1 ++ 0 :: pair.2 ++ [0]

/-- A pair whose name and value end where they are meant to, and whose name is not taken for the end
of the packet. -/
structure Delimited (pair : Octets × Octets) : Prop where
  named : pair.1 ≠ []
  name_closed : 0 ∉ pair.1
  value_closed : 0 ∉ pair.2

/-- The pairs up to an empty name, and what follows that.  There are none if the octets end
before. -/
def readPairs (s : Octets) : Option (List (Octets × Octets) × Octets) :=
  match _named : cstring? s with
  | none => none
  | some (name, more) =>
      if name = [] then some ([], more)
      else match _valued : cstring? more with
        | none => none
        | some (value, rest) =>
            (readPairs rest).map fun (pairs, rest) => ((name, value) :: pairs, rest)
termination_by s.length
decreasing_by
  have hname := cstring?_length_lt _named
  have hvalue := cstring?_length_lt _valued
  omega

theorem readPairs_zero (s : Octets) : readPairs (0 :: s) = some ([], s) := by
  rw [readPairs]
  rfl

theorem readPairs_writePair {pair : Octets × Octets} (h : Delimited pair) (s : Octets) :
    readPairs (writePair pair ++ s) =
      (readPairs s).map fun (pairs, rest) => (pair :: pairs, rest) := by
  have hname : cstring? (writePair pair ++ s) = some (pair.1, pair.2 ++ 0 :: s) := by
    rw [writePair, List.append_assoc, List.append_assoc]
    exact cstring?_append _ h.name_closed
  have hvalue : cstring? (pair.2 ++ 0 :: s) = some (pair.2, s) :=
    cstring?_append s h.value_closed
  rw [readPairs]
  split
  next hnone => cases hname.symm.trans hnone
  next hsome =>
    cases hname.symm.trans hsome
    rw [if_neg h.named]
    split
    next hnone => cases hvalue.symm.trans hnone
    next hsome =>
      cases hvalue.symm.trans hsome
      rfl

/-- What is read are the pairs that were written, if each of them is delimited; no other octets are
read as these pairs. -/
theorem readPairs_eq_some_iff {s rest : Octets} {pairs : List (Octets × Octets)} :
    readPairs s = some (pairs, rest) ↔
      s = pairs.flatMap writePair ++ 0 :: rest ∧ ∀ pair ∈ pairs, Delimited pair := by
  constructor
  · intro h
    fun_induction readPairs s generalizing pairs rest with
    | case1 s hnone => cases h
    | case2 s more hnamed =>
        cases h
        obtain ⟨rfl, -⟩ := cstring?_eq_some hnamed
        exact ⟨rfl, List.forall_mem_nil _⟩
    | case3 s name more hnamed hname hnone => cases h
    | case4 s name more hnamed hname value after hvalued ih =>
        obtain ⟨⟨others, last⟩, hothers, hpairs⟩ := Option.map_eq_some_iff.mp h
        cases hpairs
        obtain ⟨rfl, hnameClosed⟩ := cstring?_eq_some hnamed
        obtain ⟨rfl, hvalueClosed⟩ := cstring?_eq_some hvalued
        obtain ⟨rfl, hdelimited⟩ := ih hothers
        refine ⟨?_, List.forall_mem_cons.mpr ⟨⟨hname, hnameClosed, hvalueClosed⟩, hdelimited⟩⟩
        simp [writePair]
  · rintro ⟨rfl, hdelimited⟩
    induction pairs with
    | nil => exact readPairs_zero rest
    | cons pair pairs ih =>
        obtain ⟨hfirst, hothers⟩ := List.forall_mem_cons.mp hdelimited
        rw [List.flatMap_cons, List.append_assoc, readPairs_writePair hfirst, ih hothers]
        rfl

def octetPair (pair : String × String) : Octets × Octets :=
  (ofString pair.1, ofString pair.2)

theorem encodePairs_eq (pairs : List (String × String)) :
    encodePairs pairs = (pairs.map octetPair).flatMap writePair ++ [0] := by
  rw [encodePairs, List.flatMap_map]
  rfl

/-- Pairs of texts are read back from what is written for them just if each of them is delimited. -/
theorem readPairs_encodePairs_iff (pairs : List (String × String)) :
    readPairs (encodePairs pairs) = some (pairs.map octetPair, []) ↔
      ∀ pair ∈ pairs, Delimited (octetPair pair) := by
  rw [readPairs_eq_some_iff, encodePairs_eq, and_iff_right rfl, List.forall_mem_map]

theorem delimited_octetPair_iff {name value : String} (hnamed : ofString name ≠ [])
    (hclosed : 0 ∉ ofString name) :
    Delimited (octetPair (name, value)) ↔ '\x00' ∉ value.toList := by
  constructor
  · exact fun h hzero => h.value_closed (Utf8.zero_mem_ofString hzero)
  · exact fun hvalue => ⟨hnamed, hclosed, Utf8.zero_not_mem_ofString hvalue⟩

end Startup

namespace StartupMessage

open Startup

variable (m : StartupMessage)

theorem renderedOptions_isSome_iff : m.renderedOptions.isSome ↔ m.options ≠ [] := by
  rw [renderedOptions]
  cases m.options <;> simp

/-- The names of the parameters. -/
def names : List String :=
  ["user", "database", "application_name", "client_encoding", "options"]

theorem name_mem_of_mem_parameters {pair : String × String} (h : pair ∈ m.parameters) :
    pair.1 ∈ names := by
  rcases List.mem_append.mp h with hfixed | hoptions
  · exact List.mem_append_left ["options"] (List.mem_map_of_mem (f := Prod.fst) hfixed)
  · obtain ⟨options, -, rfl⟩ := List.mem_map.mp hoptions
    show "options" ∈ names
    decide

/-- The names of the parameters are delimited, so all depends on their values. -/
theorem delimited_parameters_iff :
    (∀ pair ∈ m.parameters, Delimited (octetPair pair)) ↔
      ∀ pair ∈ m.parameters, '\x00' ∉ pair.2.toList := by
  have hnames : ∀ name ∈ names, ofString name ≠ [] ∧ 0 ∉ ofString name := by
    decide
  refine forall₂_congr fun pair hpair => ?_
  obtain ⟨hnamed, hclosed⟩ := hnames pair.1 (m.name_mem_of_mem_parameters hpair)
  exact delimited_octetPair_iff hnamed hclosed

theorem encode_eq :
    m.encode = bigEndian 4 m.encode.length ++
      (ofInt32 protocolVersion ++ encodePairs m.parameters) := by
  have hlength : m.encode.length =
      (ofInt32 protocolVersion ++ encodePairs m.parameters).length + 4 := by
    show (bigEndian 4 _ ++ (ofInt32 protocolVersion ++ encodePairs m.parameters)).length = _
    rw [List.length_append, length_bigEndian, Nat.add_comm]
  rw [hlength]
  rfl

theorem take_encode : m.encode.take 4 = bigEndian 4 m.encode.length := by
  conv =>
    lhs
    rw [m.encode_eq]
  exact List.take_left' (length_bigEndian 4 _)

theorem take_drop_encode : (m.encode.drop 4).take 4 = ofInt32 protocolVersion := by
  rw [m.encode_eq, List.drop_left' (length_bigEndian 4 _), List.take_left' (length_ofInt32 _)]

theorem drop_encode : m.encode.drop 8 = encodePairs m.parameters := by
  rw [m.encode_eq, ← List.append_assoc]
  apply List.drop_left'
  rw [List.length_append, length_bigEndian, length_ofInt32]

theorem zero_not_mem_values_iff :
    (∀ pair ∈ m.parameters, '\x00' ∉ pair.2.toList) ↔
      ∀ text ∈ [m.user, m.database, m.applicationName] ++ m.renderedOptions.toList,
        '\x00' ∉ text.toList := by
  have hencoding : '\x00' ∉ "UTF8".toList := by
    decide
  simp only [parameters, List.forall_mem_append, List.forall_mem_cons, List.forall_mem_map,
    hencoding]
  simp

/-- **The startup packet carries what was configured, unless a text holds a zero character.**  What
is written begins with its own length and the version of the protocol.  What a server reads after
them are the user, the database, the name of the application, the encoding and, if options are
configured, the options, and it finds nothing behind them, just if there is no zero character in any
of these. -/
theorem transmit_carries_parameters (c : Config) {l : Link}
    (hsize : (ofConfig c).encode.length < 2147483648)
    (hopen : l.Open (ofConfig c).encode.length) :
    ∃ packet l', Link.transmit (ofConfig c).encode l = .ok () l' ∧ l'.sent = l.sent ++ packet ∧
      (Payload.int32 (packet.take 4)).toInt = packet.length ∧
      Payload.int32 ((packet.drop 4).take 4) = 196608 ∧
      ((ofConfig c).renderedOptions.isSome ↔ c.options.entries ≠ []) ∧
      (readPairs (packet.drop 8) = some (List.map octetPair
          ([("user", c.user), ("database", c.database), ("application_name", c.applicationName),
            ("client_encoding", "UTF8")] ++
            (ofConfig c).renderedOptions.toList.map ("options", ·)), []) ↔
        ∀ text ∈ [c.user, c.database, c.applicationName] ++ (ofConfig c).renderedOptions.toList,
          '\x00' ∉ text.toList) := by
  have hroom : l.Open ((ofConfig c).encode.length + 0) := hopen
  obtain ⟨l', htransmit, hwrote, -⟩ := Link.transmit_wrote _ hroom
  refine ⟨(ofConfig c).encode, l', htransmit, hwrote.sent_eq, ?_, ?_, ?_, ?_⟩
  · rw [take_encode, Payload.toInt_int32_bigEndian (Nat.le_of_lt_succ hsize)]
  · rw [take_drop_encode, Payload.int32_ofInt32]
    rfl
  · have hsorted := (List.mergeSort_perm c.options.entries optionLe).length_eq
    rw [renderedOptions_isSome_iff, ne_eq, ne_eq, ← List.length_eq_zero_iff,
      ← List.length_eq_zero_iff, ← hsorted]
    rfl
  · rw [drop_encode]
    exact (readPairs_encodePairs_iff _).trans
      ((delimited_parameters_iff _).trans (zero_not_mem_values_iff _))

/-- Two empty texts, and an option with a space in its value. -/
theorem transmit_carries_parameters_empty :
    let c : Config := { user := "", database := "", options := ⟨[("k", "a b")]⟩ }
    (ofConfig c).encode.length < 2147483648 ∧ Link.Open {} (ofConfig c).encode.length ∧
      ∃ packet l', Link.transmit (ofConfig c).encode {} = .ok () l' ∧ l'.sent = packet ∧
        readPairs (packet.drop 8) = some (List.map octetPair
          [("user", ""), ("database", ""), ("application_name", "pgwire-client"),
            ("client_encoding", "UTF8"), ("options", "-c k=a\\ b")], []) := by
  intro c
  have hmessage : ofConfig c = ⟨"", "", "pgwire-client", [("k", "a b")]⟩ := by
    simp [ofConfig, c]
  have hsize : (ofConfig c).encode.length < 2147483648 := by
    rw [hmessage]
    decide +kernel
  have hopen : Link.Open {} (ofConfig c).encode.length := .of_unlimited rfl rfl rfl _
  obtain ⟨packet, l', htransmit, hsent, -, -, -, hread⟩ := transmit_carries_parameters c hsize hopen
  refine ⟨hsize, hopen, packet, l', htransmit, hsent, ?_⟩
  rw [hmessage] at hread
  exact hread.mpr (by decide)

end StartupMessage

end PgFrontend
