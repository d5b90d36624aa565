import PgFrontend.Auth.Parser
import PgFrontend.Proofs.Text.Characters
import PgFrontend.Proofs.Wire.Numbers
import PgFrontend.Proofs.Wire.Runs
/-!
# Payloads of authentication requests

Which payloads hold which request. `parse_eq_ok_iff` says that each payload holds just the request
that it is read as, and `Malformed` are the payloads that hold none.
-/

namespace PgFrontend.AuthRequest

open Octets

/-! ## Lists of names -/

def writeName (name : Octets) : Octets :=
  name ++ [0]

/-- Where a list of names ends: at an empty name, or at one without an end. -/
inductive Ended : Octets → Prop
  | empty (more : Octets) : Ended (0 :: more)
  | unterminated (s : Octets) (hopen : 0 ∉ s) : Ended s

/-- The octets are a list of names, as long as can be, and a rest. -/
abbrev Listed (s : Octets) (listed : List Octets) (rest : Octets) : Prop :=
  Run writeName (fun name => name ≠ [] ∧ 0 ∉ name) Ended s listed rest

theorem Ended.names_eq_nil {rest : Octets} (h : Ended rest) : names rest = [] := by
  rw [names]
  split
  · rfl
  next name more hcut =>
    cases h with
    | empty more =>
        cases hcut
        rfl
    | unterminated rest hopen =>
        rw [cstring?_eq_none_iff.mpr hopen] at hcut
        cases hcut

theorem names_writeName {name : Octets} (hname : name ≠ []) (hzero : 0 ∉ name) (s : Octets) :
    names (writeName name ++ s) = Utf8.lossy name :: names s := by
  have hcut : cstring? (writeName name ++ s) = some (name, s) := by
    rw [writeName, List.append_assoc]
    exact cstring?_append s hzero
  rw [names]
  split
  next hnone =>
    rw [hcut] at hnone
    cases hnone
  next hsome =>
    rw [hcut] at hsome
    cases hsome
    rw [if_neg (by simpa using hname)]

theorem names_readsRun :
    ReadsRun names Utf8.lossy writeName (fun name => name ≠ [] ∧ 0 ∉ name) Ended :=
  ⟨Ended.names_eq_nil, fun hproper => names_writeName hproper.1 hproper.2⟩

/-- What is not the end of a list begins with a name. -/
theorem ended_or_writeName (s : Octets) :
    Ended s ∨ ∃ name t, (name ≠ [] ∧ 0 ∉ name) ∧ s = writeName name ++ t ∧ t.length < s.length := by
  cases hcut : cstring? s with
  | none => exact .inl (.unterminated s (cstring?_eq_none_iff.mp hcut))
  | some found =>
      obtain ⟨rfl, hzero⟩ := cstring?_eq_some hcut
      by_cases hname : found.1 = []
      · exact .inl (hname ▸ .empty found.2)
      · refine .inr ⟨found.1, found.2, ⟨hname, hzero⟩, by simp [writeName], ?_⟩
        rw [List.length_append, List.length_cons]
        omega

theorem exists_listed (s : Octets) : ∃ listed rest, Listed s listed rest :=
  Run.exists_of_split ended_or_writeName s

/-- A name without a replacement character is in a list just if its octets are a whole name there. -/
theorem mem_map_lossy_iff {listed : List Octets} {name : String}
    (hname : Utf8.replacement ∉ name.toList) :
    name ∈ listed.map Utf8.lossy ↔ ofString name ∈ listed := by
  rw [List.mem_map]
  constructor
  · rintro ⟨octets, hmem, hlossy⟩
    exact (Utf8.lossy_eq_iff hname).mp hlossy ▸ hmem
  · intro hmem
    exact ⟨_, hmem, (Utf8.lossy_eq_iff hname).mpr rfl⟩

/-! ## Requests -/

/-- Which request a payload holds: by its code, and by what follows the code. -/
inductive Held : Octets → AuthRequest → Prop
  | ok (rest : Octets) : Held (ofInt32 0 ++ rest) .ok
  | cleartextPassword (rest : Octets) : Held (ofInt32 3 ++ rest) .cleartextPassword
  | md5Password (salt rest : Octets) (hsalt : salt.length = 4) :
      Held (ofInt32 5 ++ (salt ++ rest)) (.md5Password salt)
  | sasl (s : Octets) (listed : List Octets) (rest : Octets) (hlisted : Listed s listed rest) :
      Held (ofInt32 10 ++ s) (.sasl (listed.map Utf8.lossy))
  | saslContinue (data : Octets) : Held (ofInt32 11 ++ data) (.saslContinue data)
  | saslFinal (data : Octets) : Held (ofInt32 12 ++ data) (.saslFinal data)
  | unsupported (code : Int32) (rest : Octets) (hcode : code ∉ [0, 3, 5, 10, 11, 12]) :
      Held (ofInt32 code ++ rest) (.unsupported code)

/-- A payload holds no request: it ends within the code, or within the salt. -/
def Malformed (payload : Octets) : Prop :=
  payload.length < 4 ∨ ∃ salt, payload = ofInt32 5 ++ salt ∧ salt.length < 4

theorem code_ofInt32 (c : Int32) (s : Octets) : code (ofInt32 c ++ s) = .ok (c, s) := by
  rw [code, field?_append s (length_ofInt32 c)]
  dsimp only
  rw [Payload.int32_ofInt32]

/-- A payload that is long enough begins with a code. -/
theorem exists_ofInt32 {payload : Octets} (h : ¬payload.length < 4) :
    ∃ c s, payload = ofInt32 c ++ s := by
  cases hhead : field? 4 payload with
  | none => exact absurd (field?_eq_none_iff.mp hhead) h
  | some found =>
      obtain ⟨hpayload, hlength⟩ := field?_eq_some hhead
      exact ⟨Payload.int32 found.1, found.2, by rw [Payload.ofInt32_int32 hlength, hpayload]⟩

theorem parse_ofInt32 (c : Int32) (s : Octets) :
    parse (ofInt32 c ++ s) =
      match c.toInt with
      | 0 => .ok ok
      | 3 => .ok cleartextPassword
      | 5 =>
          match field? 4 s with
          | none => .error (.protocol .missingSalt)
          | some (salt, _) => .ok (md5Password salt)
      | 10 => .ok (sasl (names s))
      | 11 => .ok (saslContinue s)
      | 12 => .ok (saslFinal s)
      | _ => .ok (unsupported c) := by
  rw [parse, code_ofInt32]
  rfl

theorem parse_salted (s : Octets) :
    parse (ofInt32 5 ++ s) =
      (field? 4 s).elim (.error (.protocol .missingSalt)) fun found => .ok (.md5Password found.1) := by
  rw [parse_ofInt32]
  cases field? 4 s <;> rfl

variable {payload : Octets} {request : AuthRequest}

theorem Held.parse_eq (h : Held payload request) : parse payload = .ok request := by
  cases h with
  | ok rest => rw [parse_ofInt32]; rfl
  | cleartextPassword rest => rw [parse_ofInt32]; rfl
  | md5Password salt rest hsalt =>
      rw [parse_salted, field?_append rest hsalt]
      rfl
  | sasl s listed rest hlisted =>
      rw [parse_ofInt32, ← hlisted.read_eq names_readsRun]
      rfl
  | saslContinue data => rw [parse_ofInt32]; rfl
  | saslFinal data => rw [parse_ofInt32]; rfl
  | unsupported code rest hcode =>
      have hne (known : Int32) (hknown : known ∈ [0, 3, 5, 10, 11, 12]) :
          code.toInt ≠ known.toInt :=
        fun hequal => hcode (Int32.toInt_inj.mp hequal ▸ hknown)
      rw [parse_ofInt32]
      split
      next hequal => exact absurd hequal (hne 0 (by decide))
      next hequal => exact absurd hequal (hne 3 (by decide))
      next hequal => exact absurd hequal (hne 5 (by decide))
      next hequal => exact absurd hequal (hne 10 (by decide))
      next hequal => exact absurd hequal (hne 11 (by decide))
      next hequal => exact absurd hequal (hne 12 (by decide))
      · rfl

/-- A payload that is long enough holds a request, or ends within the salt. -/
theorem exists_held (h : ¬Malformed payload) : ∃ request, Held payload request := by
  rw [Malformed, not_or] at h
  obtain ⟨hlong, hsalt⟩ := h
  obtain ⟨c, s, rfl⟩ := exists_ofInt32 hlong
  by_cases hcode : c ∈ [0, 3, 5, 10, 11, 12]
  · simp only [List.mem_cons, List.not_mem_nil, or_false] at hcode
    rcases hcode with rfl | rfl | rfl | rfl | rfl | rfl
    · exact ⟨_, .ok s⟩
    · exact ⟨_, .cleartextPassword s⟩
    · have hwhole : ¬s.length < 4 := fun hshort => hsalt ⟨s, rfl, hshort⟩
      refine ⟨.md5Password (s.take 4), ?_⟩
      have hheld := Held.md5Password (s.take 4) (s.drop 4) (by rw [List.length_take]; omega)
      rwa [List.take_append_drop] at hheld
    · obtain ⟨listed, rest, hlisted⟩ := exists_listed s
      exact ⟨_, .sasl s listed rest hlisted⟩
    · exact ⟨_, .saslContinue s⟩
    · exact ⟨_, .saslFinal s⟩
  · exact ⟨_, .unsupported c s hcode⟩

theorem Malformed.parse_eq (h : Malformed payload) :
    ∃ violation, parse payload = .error (.protocol violation) := by
  rcases h with hshort | ⟨salt, rfl, hshort⟩
  · rw [parse, code, field?_eq_none_iff.mpr hshort]
    exact ⟨_, rfl⟩
  · rw [parse_salted, field?_eq_none_iff.mpr hshort]
    exact ⟨_, rfl⟩

theorem Held.not_malformed (h : Held payload request) : ¬Malformed payload := by
  intro hmalformed
  obtain ⟨violation, herror⟩ := hmalformed.parse_eq
  cases h.parse_eq.symm.trans herror

theorem Held.unique {request' : AuthRequest} (h : Held payload request)
    (h' : Held payload request') : request' = request :=
  Except.ok.inj (h'.parse_eq.symm.trans h.parse_eq)

/-- Just the request that a payload holds is read. -/
theorem parse_eq_ok_iff : parse payload = .ok request ↔ Held payload request := by
  constructor
  · intro h
    by_cases hmalformed : Malformed payload
    · obtain ⟨violation, herror⟩ := hmalformed.parse_eq
      cases h.symm.trans herror
    · obtain ⟨held, hheld⟩ := exists_held hmalformed
      obtain rfl : request = held := Except.ok.inj (h.symm.trans hheld.parse_eq)
      exact hheld
  · exact Held.parse_eq

end PgFrontend.AuthRequest
