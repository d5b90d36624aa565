import PgFrontend.Wire.Startup
/-!
# The order of session options

A configuration holds its options as a map, and the entries of a map may come in any order.  The
packet has them in ascending order of keys, and no key twice, so it depends only on which value each
key has: `eq_of_mem_iff` says that there is only one such list of the same options.  The value of a
key is the one that was inserted last, `find?_withOptions`.
-/

namespace PgFrontend

/-- In a list of entries with different keys, an entry is found by its key. -/
theorem mem_iff_lookup_eq_some {entries : List (String × String)}
    (h : (entries.map (·.1)).Nodup) {key text : String} :
    (key, text) ∈ entries ↔ entries.lookup key = some text := by
  rw [List.lookup_eq_some_iff]
  constructor
  · intro hmem
    obtain ⟨before, after, rfl⟩ := List.append_of_mem hmem
    refine ⟨before, after, rfl, fun entry hentry => bne_iff_ne.mpr ?_⟩
    rintro rfl
    rw [List.map_append, List.nodup_append] at h
    exact h.2.2 entry.1 (List.mem_map_of_mem hentry) entry.1 (List.mem_cons_self ..) rfl
  · rintro ⟨before, after, rfl, -⟩
    exact List.mem_append_right _ (List.mem_cons_self ..)

namespace Settings

variable {s : Settings} {entries : List (String × String)}

theorem find?_insert (s : Settings) (key text other : String) :
    (s.insert key text).find? other = if other = key then some text else s.find? other := by
  split
  next heq => rw [heq, find?_insert_self]
  next hne => exact find?_insert_of_ne s key text hne

/-- A list of all the settings: each key once, with its text, in whatever order. -/
structure Enumerates (s : Settings) (entries : List (String × String)) : Prop where
  nodup : (entries.map (·.1)).Nodup
  lookup_eq : ∀ key, entries.lookup key = s.find? key

theorem Enumerates.mem_iff (h : s.Enumerates entries) {key text : String} :
    (key, text) ∈ entries ↔ s.find? key = some text := by
  rw [← h.lookup_eq, mem_iff_lookup_eq_some h.nodup]

theorem Enumerates.of_perm {others : List (String × String)} (h : s.Enumerates entries)
    (hperm : others.Perm entries) : s.Enumerates others := by
  have hnodup : (others.map (·.1)).Nodup := (hperm.map _).nodup_iff.mpr h.nodup
  refine ⟨hnodup, fun key => Option.ext fun text => ?_⟩
  rw [← mem_iff_lookup_eq_some hnodup, hperm.mem_iff, h.mem_iff]

end Settings

namespace Config

def withOptions (c : Config) (insertions : List (String × String)) : Config :=
  insertions.foldl (fun c (key, value) => c.withOption key value) c

/-- The value that was inserted last for a key, or else the one that the key had before. -/
def lastValue? (c : Config) (insertions : List (String × String)) (key : String) :
    Option String :=
  (insertions.reverse.lookup key).or (c.options.find? key)

variable (c : Config) (insertions : List (String × String))

theorem find?_withOptions (key : String) :
    (c.withOptions insertions).options.find? key = c.lastValue? insertions key := by
  induction insertions generalizing c with
  | nil => rfl
  | cons insertion insertions ih =>
      obtain ⟨inserted, value⟩ := insertion
      have hinsert : (c.withOption inserted value).options.find? key =
          (List.lookup key [(inserted, value)]).or (c.options.find? key) := by
        rw [withOption, Settings.find?_insert, List.lookup_singleton]
        by_cases heq : key = inserted <;> simp [heq]
      calc
        _ = ((c.withOption inserted value).withOptions insertions).options.find? key := rfl
        _ = (insertions.reverse.lookup key).or
              ((List.lookup key [(inserted, value)]).or (c.options.find? key)) := by
            rw [ih, lastValue?, hinsert]
        _ = c.lastValue? ((inserted, value) :: insertions) key := by
            rw [lastValue?, List.reverse_cons, List.lookup_append, Option.or_assoc]

/-- Inserting options changes nothing else. -/
theorem withOptions_eq :
    c.withOptions insertions = { c with options := (c.withOptions insertions).options } := by
  induction insertions generalizing c with
  | nil => rfl
  | cons insertion insertions ih => exact ih (c.withOption insertion.1 insertion.2)

end Config

namespace StartupMessage

/-! ## Options in ascending order -/

theorem optionLe_iff {x y : String × String} :
    optionLe x y = true ↔ x.1 < y.1 ∨ x.1 = y.1 ∧ x.2 ≤ y.2 := by
  simp [optionLe]

theorem optionLe_trans (x y z : String × String) (hxy : optionLe x y = true)
    (hyz : optionLe y z = true) : optionLe x z = true := by
  rw [optionLe_iff] at *
  rcases hxy with hxy | ⟨hxy, hxy'⟩ <;> rcases hyz with hyz | ⟨hyz, hyz'⟩
  · exact .inl (String.lt_trans hxy hyz)
  · exact .inl (hyz ▸ hxy)
  · exact .inl (hxy ▸ hyz)
  · exact .inr ⟨hxy.trans hyz, String.le_trans hxy' hyz'⟩

theorem optionLe_total (x y : String × String) : (optionLe x y || optionLe y x) = true := by
  rw [Bool.or_eq_true, optionLe_iff, optionLe_iff]
  by_cases hlt : x.1 < y.1
  · exact .inl (.inl hlt)
  by_cases hgt : y.1 < x.1
  · exact .inr (.inl hgt)
  have hkey : x.1 = y.1 := String.le_antisymm (String.not_lt.mp hgt) (String.not_lt.mp hlt)
  rcases String.le_total x.2 y.2 with hle | hle
  · exact .inl (.inr ⟨hkey, hle⟩)
  · exact .inr (.inr ⟨hkey.symm, hle⟩)

/-- Options in strictly ascending order of keys. -/
def Ascending (options : List (String × String)) : Prop :=
  options.Pairwise fun x y => x.1 < y.1

theorem Ascending.nodup {options : List (String × String)} (h : Ascending options) :
    options.Nodup := by
  refine h.imp fun {x y} hlt heq => ?_
  rw [heq] at hlt
  exact String.lt_irrefl _ hlt

/-- There is only one ascending list of the same options. -/
theorem Ascending.eq_of_mem_iff {xs ys : List (String × String)} (hxs : Ascending xs)
    (hys : Ascending ys) (h : ∀ option, option ∈ xs ↔ option ∈ ys) : xs = ys :=
  ((List.perm_ext_iff_of_nodup hxs.nodup hys.nodup).mpr h).eq_of_pairwise
    (fun _ _ _ _ hlt hgt => absurd hgt (String.lt_asymm hlt)) hxs hys

theorem ascending_mergeSort {entries : List (String × String)}
    (h : (entries.map (·.1)).Nodup) : Ascending (entries.mergeSort optionLe) := by
  have hsorted := List.pairwise_mergeSort optionLe_trans optionLe_total entries
  have hkeys : ((entries.mergeSort optionLe).map (·.1)).Nodup :=
    ((List.mergeSort_perm entries optionLe).map _).nodup_iff.mpr h
  refine (hsorted.and (List.pairwise_map.mp hkeys)).imp fun ⟨hle, hne⟩ => ?_
  exact (optionLe_iff.mp hle).resolve_right fun heq => hne heq.1

/-! ## Packets -/

variable {c : Config} {insertions entries : List (String × String)}

/-- A text as it stands in a packet. -/
def closed (text : String) : Octets :=
  Octets.ofString text ++ [0]

/-- An option as an argument, with a backslash before each space and each backslash of its value. -/
def argumentOf (option : String × String) : String :=
  "-c " ++ option.1 ++ "=" ++ String.ofList
    (option.2.toList.flatMap fun c => if c = ' ' ∨ c = '\\' then ['\\', c] else [c])

/-- The packet of a configuration with some options, in the order in which it has them, after its
length. -/
def bodyOf (c : Config) (options : List (String × String)) : Octets :=
  [0, 3, 0, 0] ++ closed "user" ++ closed c.user ++ closed "database" ++ closed c.database ++
    closed "application_name" ++ closed c.applicationName ++ closed "client_encoding" ++
    closed "UTF8" ++
    (if options = [] then []
      else closed "options" ++ closed (String.intercalate " " (options.map argumentOf))) ++ [0]

def packetOf (c : Config) (options : List (String × String)) : Octets :=
  Octets.bigEndian 4 ((bodyOf c options).length + 4) ++ bodyOf c options

theorem escapeValue_eq (cs : List Char) :
    escapeValue cs = cs.flatMap fun c => if c = ' ' ∨ c = '\\' then ['\\', c] else [c] := by
  induction cs with
  | nil => rfl
  | cons c cs ih =>
      rw [escapeValue, ih, List.flatMap_cons]
      split <;> rfl

theorem renderOption_eq (option : String × String) : renderOption option = argumentOf option := by
  rw [renderOption, escapeValue_eq, argumentOf]

theorem encodePairs_cons (name value : String) (pairs : List (String × String)) :
    encodePairs ((name, value) :: pairs) = closed name ++ (closed value ++ encodePairs pairs) := by
  simp [encodePairs, closed]

@[simp] theorem user_ofConfig (c : Config) : (ofConfig c).user = c.user := rfl

@[simp] theorem database_ofConfig (c : Config) : (ofConfig c).database = c.database := rfl

@[simp] theorem applicationName_ofConfig (c : Config) :
    (ofConfig c).applicationName = c.applicationName := rfl

theorem encode_ofConfig (c : Config) : (ofConfig c).encode = packetOf c (ofConfig c).options := by
  have hversion : Octets.bigEndian 4 protocolVersion.toUInt32.toNat = [0, 3, 0, 0] := by decide
  have hbody : Octets.bigEndian 4 protocolVersion.toUInt32.toNat ++
      encodePairs (ofConfig c).parameters = bodyOf c (ofConfig c).options := by
    have hoptions : renderOption = argumentOf := funext renderOption_eq
    have hclosed : encodePairs [] = [0] := rfl
    rw [hversion, parameters, renderedOptions, hoptions, bodyOf]
    cases (ofConfig c).options with
    | nil => simp [encodePairs_cons, hclosed]
    | cons option options => simp [encodePairs_cons, hclosed]
  rw [encode, encodeStartup, hbody]
  rfl

/-- The packet after some insertions, when their map is gone through as `entries`. -/
theorem encode_withOptions (c : Config) (insertions entries : List (String × String)) :
    (ofConfig { c.withOptions insertions with options := ⟨entries⟩ }).encode =
      packetOf c (entries.mergeSort optionLe) := by
  rw [encode_ofConfig, Config.withOptions_eq]
  rfl

theorem mem_sorted_iff (h : (c.withOptions insertions).options.Enumerates entries)
    {key value : String} :
    (key, value) ∈ entries.mergeSort optionLe ↔ c.lastValue? insertions key = some value := by
  rw [List.mem_mergeSort, h.mem_iff, Config.find?_withOptions]

/-- **The startup packet depends only on the set of options.**  However options are inserted, in
whatever order and with whatever values before the last of each key, and in whatever order their map
is gone through: if the same keys have the same values, the same octets are written.  They hold the
options in strictly ascending order of keys, each key once, with the value inserted last. -/
theorem encode_eq_of_same_options (c : Config) {xs ys first second : List (String × String)}
    (hsame : ∀ key,
      (c.withOptions xs).options.find? key = (c.withOptions ys).options.find? key)
    (hfirst : (c.withOptions xs).options.Enumerates first)
    (hsecond : (c.withOptions ys).options.Enumerates second) :
    (ofConfig { c.withOptions xs with options := ⟨first⟩ }).encode =
        (ofConfig { c.withOptions ys with options := ⟨second⟩ }).encode ∧
      ∃ options : List (String × String),
        (ofConfig { c.withOptions xs with options := ⟨first⟩ }).encode = packetOf c options ∧
        options.Pairwise (fun x y => x.1 < y.1) ∧
        ∀ key value, (key, value) ∈ options ↔ c.lastValue? xs key = some value := by
  have hmem (option : String × String) :
      option ∈ first.mergeSort optionLe ↔ option ∈ second.mergeSort optionLe := by
    rw [mem_sorted_iff hfirst, mem_sorted_iff hsecond, ← Config.find?_withOptions,
      ← Config.find?_withOptions, hsame]
  have hsorted : first.mergeSort optionLe = second.mergeSort optionLe :=
    (ascending_mergeSort hfirst.nodup).eq_of_mem_iff (ascending_mergeSort hsecond.nodup) hmem
  refine ⟨?_, first.mergeSort optionLe, encode_withOptions c xs first,
    ascending_mergeSort hfirst.nodup, fun key value => mem_sorted_iff hfirst⟩
  rw [encode_withOptions, encode_withOptions, hsorted]

/-- One option is inserted twice, and the options are gone through from either end. -/
theorem encode_eq_of_same_options_twice :
    let c : Config := { options := ⟨[("b", "0")]⟩ }
    let xs := [("b", "1"), ("a", "x y"), ("b", "2")]
    let ys := [("a", "x y"), ("b", "2")]
    let first := [("a", "x y"), ("b", "2")]
    let second := [("b", "2"), ("a", "x y")]
    (∀ key, (c.withOptions xs).options.find? key = (c.withOptions ys).options.find? key) ∧
      (c.withOptions xs).options.Enumerates first ∧
      (c.withOptions ys).options.Enumerates second ∧
      (ofConfig { c.withOptions xs with options := ⟨first⟩ }).encode =
        (ofConfig { c.withOptions ys with options := ⟨second⟩ }).encode ∧
      ∃ options, (ofConfig { c.withOptions xs with options := ⟨first⟩ }).encode =
          packetOf c options ∧
        ("b", "2") ∈ options ∧ ("b", "1") ∉ options := by
  intro c xs ys first second
  have hsame : (c.withOptions xs).options = (c.withOptions ys).options := by decide
  have hfirst : (c.withOptions xs).options.Enumerates first := ⟨by decide, fun _ => rfl⟩
  have hsecond : (c.withOptions ys).options.Enumerates second :=
    (hsame ▸ hfirst).of_perm (.swap _ _ _)
  obtain ⟨hpacket, options, hoptions, -, hmem⟩ :=
    encode_eq_of_same_options c (fun key => hsame ▸ rfl) hfirst hsecond
  refine ⟨fun key => hsame ▸ rfl, hfirst, hsecond, hpacket, options, hoptions,
    (hmem "b" "2").mpr rfl, fun hold => ?_⟩
  exact absurd ((hmem "b" "1").mp hold) (by decide)

end StartupMessage

end PgFrontend
