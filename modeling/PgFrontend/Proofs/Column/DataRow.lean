import PgFrontend.Proofs.Wire.Counted
import PgFrontend.Proofs.Wire.Violations
/-!
# Rows

What a server may write about the values of a row.  `parse_exact` says that just these payloads are
read, each value to the octets that were written for it and to none for a null, that the values which
a row can hold are read back, and that any other payload violates the protocol.
-/

namespace PgFrontend.DataRow

open Octets

/-- What a server may write about one value: nothing but a negative size for a null, of which there
are many, or a size and so many octets. -/
inductive Cell
  | null (size : Int32) (negative : size < 0)
  | value (octets : Octets) (sized : octets.length ≤ 2147483647)

namespace Cell

def encode : Cell → Octets
  | null size _ => ofInt32 size
  | value octets _ => bigEndian 4 octets.length ++ octets

def content : Cell → Option Octets
  | null _ _ => none
  | value octets _ => some octets

end Cell

/-- Writes a value as servers do, with the size -1 for a null. -/
def write : Option Octets → Octets
  | none => ofInt32 (-1)
  | some octets => bigEndian 4 octets.length ++ octets

/-! ## Reading one value -/

theorem parseOne_null {head : Octets} (r : Octets) (hhead : head.length = 4)
    (hnegative : Payload.int32 head < 0) : parseOne (head ++ r) = .ok (none, r) := by
  rw [parseOne, Payload.field_append _ r hhead]
  show (if Payload.int32 head < 0 then _ else _) = _
  rw [if_pos hnegative]
  rfl

theorem parseOne_sized {head : Octets} (r : Octets) (hhead : head.length = 4)
    (hnonneg : ¬Payload.int32 head < 0) :
    parseOne (head ++ r) =
      (Payload.field .column (Payload.int32 head).toInt.toNat r).map fun (octets, rest) =>
        (some octets, rest) := by
  rw [parseOne, Payload.field_append _ r hhead]
  show (if Payload.int32 head < 0 then _ else _) = _
  rw [if_neg hnonneg]
  cases Payload.field .column (Payload.int32 head).toInt.toNat r with
  | error fault => rfl
  | ok found => rfl

/-- One value is read from just what may be written about it. -/
theorem parseOne_readsBack : Payload.ReadsBack parseOne Cell.encode Cell.content where
  read_write cell r := by
    cases cell with
    | null size negative =>
        have hhead : Payload.int32 (ofInt32 size) < 0 := by rwa [Payload.int32_ofInt32]
        exact parseOne_null r (length_ofInt32 size) hhead
    | value octets sized =>
        have hsize := Payload.toInt_int32_bigEndian sized
        have hnonneg : ¬Payload.int32 (bigEndian 4 octets.length) < 0 := by
          rw [Int32.lt_iff_toInt_lt, hsize, Int32.toInt_zero]
          omega
        rw [Cell.encode, List.append_assoc,
          parseOne_sized _ (length_bigEndian 4 _) hnonneg, hsize, Int.toNat_natCast,
          Payload.field_append _ r rfl]
        rfl
  eq_write {s value r} h := by
    obtain ⟨⟨head, t⟩, hhead, -⟩ := bind_eq_ok_iff.mp h
    obtain ⟨rfl, hwidth⟩ := Payload.field_eq_ok hhead
    by_cases hnegative : Payload.int32 head < 0
    · rw [parseOne_null t hwidth hnegative] at h
      cases h
      refine ⟨.null (Payload.int32 head) hnegative, ?_, rfl⟩
      rw [Cell.encode, Payload.ofInt32_int32 hwidth]
    · rw [parseOne_sized t hwidth hnegative] at h
      obtain ⟨⟨octets, rest⟩, hfield, hvalue⟩ := map_eq_ok_iff.mp h
      cases hvalue
      obtain ⟨rfl, hsize⟩ := Payload.field_eq_ok hfield
      have hlt := (Payload.int32 head).toInt_lt
      refine ⟨.value octets (by omega), ?_, rfl⟩
      rw [Cell.encode, hsize, ← Payload.ofInt32_of_nonneg hnegative, Payload.ofInt32_int32 hwidth,
        List.append_assoc]

/-! ## Reading all values -/

theorem parseMany_eq (count : Nat) (s : Octets) :
    parseMany count s = (Payload.readMany parseOne count s).map Prod.fst :=
  Payload.eq_map_readMany (fun _ => rfl) (fun _ _ => rfl) count s

theorem parse_eq (payload : Octets) :
    parse payload =
      (Payload.readCounted .dataRow .negativeColumnCount parseOne payload).map Prod.fst :=
  Payload.eq_map_readCounted parseMany_eq payload

theorem parse_readsCounted : Payload.ReadsCounted parse Cell.encode Cell.content :=
  Payload.readsCounted_of_eq parseOne_readsBack parse_eq parse_fails

/-- Values of a size that can be announced are the contents of what is written for them. -/
theorem exists_cells {values : List (Option Octets)}
    (h : ∀ octets, some octets ∈ values → octets.length ≤ 2147483647) :
    ∃ cells : List Cell, cells.map Cell.content = values ∧
      cells.flatMap Cell.encode = values.flatMap write := by
  induction values with
  | nil => exact ⟨[], rfl, rfl⟩
  | cons value values ih =>
      obtain ⟨cells, rfl, hwritten⟩ := ih fun octets hmem => h octets (List.mem_cons_of_mem _ hmem)
      cases value with
      | none =>
          refine ⟨.null (-1) (by decide) :: cells, rfl, ?_⟩
          rw [List.flatMap_cons, List.flatMap_cons, hwritten]
          rfl
      | some octets =>
          refine ⟨.value octets (h octets (List.mem_cons_self ..)) :: cells, rfl, ?_⟩
          rw [List.flatMap_cons, List.flatMap_cons, hwritten]
          rfl

/-- **Rows are read exactly.**  A payload is accepted just if it is the number of some values, what is
written about these and any rest, and then the values are these, in order: none for a null, whatever
negative size stands for it, and just its octets for any other value, also if there are no octets.
Any other payload violates the protocol, and so does a payload that is cut off anywhere before the end
of its values.  In particular the values that a row can hold are read back. -/
theorem parse_exact :
    (∀ payload,
      (∀ values, parse payload = .ok values ↔
        ∃ cells rest, Payload.Counted Cell.encode payload cells rest ∧
          cells.map Cell.content = values) ∧
      (∀ cells rest, Payload.Counted Cell.encode payload cells rest →
        ∀ n, n + rest.length < payload.length →
          ∃ violation, parse (payload.take n) = .error (.protocol violation)) ∧
      ((∀ cells rest, ¬Payload.Counted Cell.encode payload cells rest) →
        ∃ violation, parse payload = .error (.protocol violation))) ∧
    ∀ values : List (Option Octets), values.length ≤ 32767 →
      (∀ octets, some octets ∈ values → octets.length ≤ 2147483647) →
      parse (bigEndian 2 values.length ++ values.flatMap write) = .ok values := by
  refine ⟨fun payload => ⟨parse_readsCounted.eq_ok_iff payload, parse_readsCounted.cut_off payload,
    parse_readsCounted.refused payload⟩, ?_⟩
  intro values hcount hsizes
  obtain ⟨cells, rfl, hwritten⟩ := exists_cells hsizes
  rw [List.length_map] at hcount ⊢
  refine (parse_readsCounted.eq_ok_iff _ _).mpr ⟨cells, [], ⟨?_, hcount⟩, rfl⟩
  rw [List.append_nil, hwritten]

/-- A null of an unusual size, an empty value and one of two octets; the last octet belongs to none,
and without the two before it the row is none. -/
theorem parse_exact_null_and_empty :
    let payload : Octets := [0, 3, 128, 0, 0, 0, 0, 0, 0, 0, 0, 0, 0, 2, 7, 8, 9]
    parse payload = .ok [none, some [], some [7, 8]] ∧
      (∃ violation, parse (payload.take 14) = .error (.protocol violation)) ∧
      parse (bigEndian 2 3 ++ [none, some [], some [7, 8]].flatMap write) =
        .ok [none, some [], some [7, 8]] := by
  intro payload
  let cells : List Cell :=
    [.null (-2147483648) (by decide), .value [] (by decide), .value [7, 8] (by decide)]
  have hcounted : Payload.Counted Cell.encode payload cells [9] := ⟨by decide, by decide⟩
  obtain ⟨hexact, hback⟩ := parse_exact
  obtain ⟨hok, hcut, -⟩ := hexact payload
  refine ⟨(hok _).mpr ⟨cells, [9], hcounted, rfl⟩, hcut cells [9] hcounted 14 (by decide), ?_⟩
  refine hback [none, some [], some [7, 8]] (by decide) ?_
  intro octets hmem
  simp only [List.mem_cons, List.not_mem_nil, or_false, Option.some.injEq, reduceCtorEq,
    false_or] at hmem
  rcases hmem with rfl | rfl
  · decide
  · decide

end PgFrontend.DataRow
