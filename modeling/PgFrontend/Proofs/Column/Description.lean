import PgFrontend.Proofs.Text.Characters
import PgFrontend.Proofs.Wire.Counted
import PgFrontend.Proofs.Wire.Violations
/-!
# Descriptions of columns

What a server may write about the columns of a result.  `parseAll_exact` says that just these payloads
are read, that writing the columns again gives back what was read of the payload, and that any other
payload violates the protocol.
-/

namespace PgFrontend

open Octets

namespace Payload

theorem text_append {name : String} (r : Octets) (h : '\x00' ∉ name.toList) :
    text (ofString name ++ 0 :: r) = .ok (name, r) := by
  rw [text, cstring?_append r (Utf8.zero_not_mem_ofString h)]
  dsimp only
  rw [Utf8.decode_ofString]

theorem text_eq_ok {name : String} {s r : Octets} (h : text s = .ok (name, r)) :
    s = ofString name ++ 0 :: r ∧ '\x00' ∉ name.toList := by
  unfold text at h
  split at h
  · cases h
  next octets rest hcut =>
    split at h
    · cases h
    next value hdecode =>
      cases h
      obtain rfl := Utf8.decode_eq_ok_iff.mp hdecode
      obtain ⟨hs, hzero⟩ := cstring?_eq_some hcut
      exact ⟨hs, fun hmem => hzero (Utf8.zero_mem_ofString hmem)⟩

end Payload

namespace Column

/-- The numbers that follow the name of a column. -/
def numbers (table : UInt32) (number : Int16) (type : UInt32) (typeSize : Int16)
    (typeModifier : Int32) (code : Int16) : Octets :=
  ofUInt32 table ++ (ofInt16 number ++ (ofUInt32 type ++ (ofInt16 typeSize ++
    (ofInt32 typeModifier ++ ofInt16 code))))

/-- What a server may write about one column: the name has no zero octet, and the code of the format
is one of the two that there are. -/
structure Description where
  name : String
  table : UInt32
  number : Int16
  type : UInt32
  typeSize : Int16
  typeModifier : Int32
  code : Int16
  unbroken : '\x00' ∉ name.toList
  known : code = 0 ∨ code = 1

namespace Description

def encode (d : Description) : Octets :=
  ofString d.name ++ 0 ::
    numbers d.table d.number d.type d.typeSize d.typeModifier d.code

/-- The column that is described. -/
def column (d : Description) : Column where
  name := d.name
  table := d.table
  number := d.number
  type := .ofUInt32 d.type
  typeSize := d.typeSize
  typeModifier := d.typeModifier
  format := if d.code = 0 then .text else .binary

end Description

/-- Writes a column as a server would describe it. -/
def encode (c : Column) : Octets :=
  ofString c.name ++ 0 ::
    numbers c.table c.number c.type.toUInt32 c.typeSize c.typeModifier c.format.code

theorem encode_column (d : Description) : d.column.encode = d.encode := by
  have hcode : d.column.format.code = d.code := by
    unfold Description.column
    rcases d.known with h | h
    · rw [h]
      rfl
    · rw [h]
      rfl
  rw [encode, hcode]
  show ofString d.name ++ 0 :: numbers d.table d.number (Oid.ofUInt32 d.type).toUInt32 _ _ _ = _
  rw [Oid.toUInt32_ofUInt32]
  rfl

theorem Description.ofCode?_code (d : Description) :
    Format.ofCode? d.code = some d.column.format := by
  unfold Description.column
  rcases d.known with h | h
  · rw [h]
    rfl
  · rw [h]
    rfl

/-! ## Reading one description -/

section Numbers

variable (table : UInt32) (number : Int16) (type : UInt32) (typeSize : Int16)
  (typeModifier : Int32) (code : Int16)

theorem length_numbers :
    (numbers table number type typeSize typeModifier code).length = 18 := by
  simp [numbers]

theorem slices_numbers :
    let f := numbers table number type typeSize typeModifier code
    f.take 4 = ofUInt32 table ∧ (f.drop 4).take 2 = ofInt16 number ∧
      (f.drop 6).take 4 = ofUInt32 type ∧ (f.drop 10).take 2 = ofInt16 typeSize ∧
      (f.drop 12).take 4 = ofInt32 typeModifier ∧ f.drop 16 = ofInt16 code := by
  simp [numbers, List.drop_append, List.drop_of_length_le]

end Numbers

/-- Numbers can be read from any octets of their size. -/
theorem numbers_slices {f : Octets} (h : f.length = 18) :
    numbers (.ofNat (toNat (f.take 4))) (Payload.int16 ((f.drop 4).take 2))
      (.ofNat (toNat ((f.drop 6).take 4))) (Payload.int16 ((f.drop 10).take 2))
      (Payload.int32 ((f.drop 12).take 4)) (Payload.int16 (f.drop 16)) = f := by
  have hjoin (start width : Nat) :
      (f.drop start).take width ++ f.drop (start + width) = f.drop start := by
    rw [← List.drop_drop, List.take_append_drop]
  rw [numbers, ofUInt32_ofNat_toNat (by simp [h]), Payload.ofInt16_int16 (by simp [h]),
    ofUInt32_ofNat_toNat (by simp [h]), Payload.ofInt16_int16 (by simp [h]),
    Payload.ofInt32_int32 (by simp [h]), Payload.ofInt16_int16 (by simp [h]),
    hjoin 12 4, hjoin 10 2, hjoin 6 4, hjoin 4 2, List.take_append_drop]

theorem parse_append {name : String} {f : Octets} {format : Format} (r : Octets)
    (hname : '\x00' ∉ name.toList) (hsize : f.length = 18)
    (hformat : Format.ofCode? (Payload.int16 (f.drop 16)) = some format) :
    parse (ofString name ++ 0 :: (f ++ r)) = .ok ({
      name
      table := .ofNat (toNat (f.take 4))
      number := Payload.int16 ((f.drop 4).take 2)
      type := .ofUInt32 (.ofNat (toNat ((f.drop 6).take 4)))
      typeSize := Payload.int16 ((f.drop 10).take 2)
      typeModifier := Payload.int32 ((f.drop 12).take 4)
      format }, r) := by
  rw [parse, Payload.text_append _ hname]
  show (Payload.field .fieldDescription 18 (f ++ r) >>= _) = _
  rw [Payload.field_append _ r hsize]
  dsimp only [bind, Except.bind]
  rw [hformat]
  rfl

theorem known_of_ofCode? {code : Int16} {format : Format} (h : Format.ofCode? code = some format) :
    code = 0 ∨ code = 1 := by
  cases format with
  | text => exact .inl (Format.code_of_ofCode? h).symm
  | binary => exact .inr (Format.code_of_ofCode? h).symm

/-- One column is read from just what may be written about it. -/
theorem parse_readsBack : Payload.ReadsBack parse Description.encode Description.column where
  read_write d r := by
    obtain ⟨htable, hnumber, htype, hsize, hmodifier, hcode⟩ :=
      slices_numbers d.table d.number d.type d.typeSize d.typeModifier d.code
    have hformat := d.ofCode?_code
    rw [← Payload.int16_ofInt16 d.code, ← hcode] at hformat
    have hparse := parse_append r d.unbroken (length_numbers ..) hformat
    rw [htable, hnumber, htype, hsize, hmodifier, ofNat_toNat_ofUInt32, ofNat_toNat_ofUInt32,
      Payload.int16_ofInt16, Payload.int16_ofInt16, Payload.int32_ofInt32] at hparse
    rw [Description.encode, List.append_assoc]
    exact hparse
  eq_write {s c r} h := by
    obtain ⟨⟨name, t⟩, hname, hnumbers⟩ := bind_eq_ok_iff.mp h
    obtain ⟨⟨f, rest⟩, hfield, hcolumn⟩ := bind_eq_ok_iff.mp hnumbers
    obtain ⟨rfl, hunbroken⟩ := Payload.text_eq_ok hname
    obtain ⟨rfl, hsize⟩ := Payload.field_eq_ok hfield
    dsimp only at hcolumn
    split at hcolumn
    · cases hcolumn
    next format hformat =>
      cases hcolumn
      let d : Description := {
        name
        table := .ofNat (toNat (f.take 4))
        number := Payload.int16 ((f.drop 4).take 2)
        type := .ofNat (toNat ((f.drop 6).take 4))
        typeSize := Payload.int16 ((f.drop 10).take 2)
        typeModifier := Payload.int32 ((f.drop 12).take 4)
        code := Payload.int16 (f.drop 16)
        unbroken := hunbroken
        known := known_of_ofCode? hformat }
      have hsame : d.column.format = format :=
        Option.some.inj (d.ofCode?_code.symm.trans hformat)
      refine ⟨d, ?_, ?_⟩
      · rw [Description.encode, numbers_slices hsize, List.append_assoc]
        rfl
      · rw [← hsame]
        rfl

theorem parseMany_eq (count : Nat) (s : Octets) :
    parseMany count s = (Payload.readMany parse count s).map Prod.fst :=
  Payload.eq_map_readMany (fun _ => rfl) (fun _ _ => rfl) count s

theorem parseAll_eq (payload : Octets) :
    parseAll payload =
      (Payload.readCounted .rowDescription .negativeFieldCount parse payload).map Prod.fst :=
  Payload.eq_map_readCounted parseMany_eq payload

theorem parseAll_readsCounted :
    Payload.ReadsCounted parseAll Description.encode Description.column :=
  Payload.readsCounted_of_eq parse_readsBack parseAll_eq parseAll_fails

/-! ## Reading all descriptions -/

theorem flatMap_encode_column (descriptions : List Description) :
    (descriptions.map Description.column).flatMap encode =
      descriptions.flatMap Description.encode := by
  rw [List.flatMap_map]
  exact congrArg (descriptions.flatMap ·) (funext encode_column)

/-- **Descriptions of columns are read exactly.**  A payload is accepted just if it is the number of
some descriptions, these descriptions and any rest, and then the columns are the described ones, in
order.  Written again, they give back the payload up to the rest.  Any other payload violates the
protocol, and so does a payload that is cut off anywhere before the end of its descriptions. -/
theorem parseAll_exact (payload : Octets) :
    (∀ columns, parseAll payload = .ok columns ↔
      ∃ descriptions rest, Payload.Counted Description.encode payload descriptions rest ∧
        descriptions.map Description.column = columns) ∧
    (∀ descriptions rest, Payload.Counted Description.encode payload descriptions rest →
      payload = bigEndian 2 descriptions.length ++
        ((descriptions.map Description.column).flatMap encode ++ rest) ∧
      ∀ n, n + rest.length < payload.length →
        ∃ violation, parseAll (payload.take n) = .error (.protocol violation)) ∧
    ((∀ descriptions rest, ¬Payload.Counted Description.encode payload descriptions rest) →
      ∃ violation, parseAll payload = .error (.protocol violation)) := by
  refine ⟨parseAll_readsCounted.eq_ok_iff payload, ?_, parseAll_readsCounted.refused payload⟩
  intro descriptions rest hcounted
  refine ⟨?_, parseAll_readsCounted.cut_off payload descriptions rest hcounted⟩
  rw [flatMap_encode_column]
  exact hcounted.payload_eq

/-- One column, with an octet after its description; without its last octet the description is none. -/
theorem parseAll_exact_trailing :
    let payload : Octets :=
      [0, 1, 105, 100, 0, 0, 0, 0, 7, 0, 1, 0, 0, 4, 0, 255, 255, 255, 255, 255, 250, 0, 1, 9]
    parseAll payload = .ok [{
      name := "id", table := 7, number := 1, type := .other 1024, typeSize := -1
      typeModifier := -6, format := .binary }] ∧
    ∃ violation, parseAll (payload.take 22) = .error (.protocol violation) := by
  intro payload
  let d : Description := {
    name := "id", table := 7, number := 1, type := 1024, typeSize := -1
    typeModifier := -6, code := 1, unbroken := by decide, known := .inr rfl }
  have hcounted : Payload.Counted Description.encode payload [d] [9] := ⟨by decide, by decide⟩
  obtain ⟨hok, hcut, -⟩ := parseAll_exact payload
  refine ⟨(hok _).mpr ⟨[d], [9], hcounted, by decide⟩, (hcut [d] [9] hcounted).2 22 (by decide)⟩

end Column

end PgFrontend
