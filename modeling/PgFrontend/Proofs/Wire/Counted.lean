import PgFrontend.Proofs.Fault
import PgFrontend.Proofs.Wire.Numbers
/-!
# Payloads that begin with a count

A payload that says how many items it holds, holds them one after another, and may go on after them.
If the reader of one item reads just what is written for it, then `readCounted_eq_ok_iff` says that
the whole payload is read just if it has this form; what follows the items is told from them, and a
payload that is cut off before their end has the form no more.
-/

namespace PgFrontend.Payload

open Octets

theorem field_append (part : MessagePart) {f : Octets} {size : Nat} (r : Octets)
    (h : f.length = size) : field part size (f ++ r) = .ok (f, r) := by
  rw [field, field?_append r h]

theorem field_eq_ok {part : MessagePart} {size : Nat} {s f r : Octets}
    (h : field part size s = .ok (f, r)) : s = f ++ r ∧ f.length = size := by
  unfold field at h
  split at h
  · cases h
  next found hfound =>
    cases h
    exact field?_eq_some hfound

variable {ι α : Type}

/-- A reader reads just what is written for some item, whatever follows it, and what it means. -/
structure ReadsBack (read : Octets → Except Fault (α × Octets)) (write : ι → Octets)
    (meaning : ι → α) : Prop where
  read_write : ∀ i r, read (write i ++ r) = .ok (meaning i, r)
  eq_write : ∀ {s a r}, read s = .ok (a, r) → ∃ i, s = write i ++ r ∧ meaning i = a

/-- Reads so many items, one after another. -/
def readMany (read : Octets → Except Fault (α × Octets)) :
    Nat → Octets → Except Fault (List α × Octets)
  | 0, s => .ok ([], s)
  | count + 1, s => do
      let (first, s) ← read s
      let (others, rest) ← readMany read count s
      return (first :: others, rest)

/-- Reads the number of the items, which must not be negative, and then so many items. -/
def readCounted (part : MessagePart) (refusal : Int16 → Violation)
    (read : Octets → Except Fault (α × Octets)) (payload : Octets) :
    Except Fault (List α × Octets) := do
  let (head, s) ← field part 2 payload
  let count := int16 head
  if count < 0 then
    throw (.protocol (refusal count))
  readMany read count.toInt.toNat s

/-- A payload is the number of some items, the items, and a rest. -/
structure Counted (write : ι → Octets) (payload : Octets) (items : List ι) (rest : Octets) :
    Prop where
  payload_eq : payload = bigEndian 2 items.length ++ (items.flatMap write ++ rest)
  length_le : items.length ≤ 32767

variable {read : Octets → Except Fault (α × Octets)} {write : ι → Octets} {meaning : ι → α}

namespace ReadsBack

theorem readMany_flatMap (h : ReadsBack read write meaning) (items : List ι) (r : Octets) :
    readMany read items.length (items.flatMap write ++ r) = .ok (items.map meaning, r) := by
  induction items with
  | nil => rfl
  | cons i items ih =>
      have hfirst := h.read_write i (items.flatMap write ++ r)
      rw [List.length_cons, List.flatMap_cons, List.append_assoc, readMany, hfirst]
      show (readMany read items.length (items.flatMap write ++ r) >>= _) = _
      rw [ih]
      rfl

theorem exists_of_readMany (h : ReadsBack read write meaning) {count : Nat} {s r : Octets}
    {found : List α} (hread : readMany read count s = .ok (found, r)) :
    ∃ items : List ι, items.length = count ∧ s = items.flatMap write ++ r ∧
      items.map meaning = found := by
  induction count generalizing s found with
  | zero =>
      cases hread
      exact ⟨[], rfl, rfl, rfl⟩
  | succ count ih =>
      obtain ⟨⟨a, t⟩, hfirst, hread⟩ := bind_eq_ok_iff.mp hread
      obtain ⟨⟨others, rest⟩, hothers, hread⟩ := bind_eq_ok_iff.mp hread
      cases hread
      obtain ⟨i, rfl, rfl⟩ := h.eq_write hfirst
      obtain ⟨items, rfl, rfl, rfl⟩ := ih hothers
      exact ⟨i :: items, rfl, by rw [List.flatMap_cons, List.append_assoc], rfl⟩

end ReadsBack

variable {part : MessagePart} {refusal : Int16 → Violation} {payload rest : Octets}
  {items : List ι} {found : List α}

theorem readCounted_append {head : Octets} (s : Octets) (hhead : head.length = 2)
    (hcount : ¬int16 head < 0) :
    readCounted part refusal read (head ++ s) = readMany read (int16 head).toInt.toNat s := by
  rw [readCounted, field_append part s hhead]
  show (if int16 head < 0 then _ else _) = _
  rw [if_neg hcount]

theorem Counted.readCounted_eq (h : Counted write payload items rest)
    (hreads : ReadsBack read write meaning) (part : MessagePart) (refusal : Int16 → Violation) :
    readCounted part refusal read payload = .ok (items.map meaning, rest) := by
  have hcount := toInt_int16_bigEndian h.length_le
  have hnonneg : ¬int16 (bigEndian 2 items.length) < 0 := by
    rw [Int16.lt_iff_toInt_lt, hcount, Int16.toInt_zero]
    omega
  rw [h.payload_eq, readCounted_append _ (length_bigEndian 2 _) hnonneg, hcount, Int.toNat_natCast,
    hreads.readMany_flatMap]

theorem counted_of_readCounted (hreads : ReadsBack read write meaning)
    (h : readCounted part refusal read payload = .ok (found, rest)) :
    ∃ items, Counted write payload items rest ∧ items.map meaning = found := by
  obtain ⟨⟨head, s⟩, hfield, hmany⟩ := bind_eq_ok_iff.mp h
  obtain ⟨rfl, hhead⟩ := field_eq_ok hfield
  have hcount : ¬int16 head < 0 := by
    intro hnegative
    dsimp only at hmany
    rw [if_pos hnegative] at hmany
    cases hmany
  rw [readCounted_append s hhead hcount] at h
  obtain ⟨items, hlength, rfl, rfl⟩ := hreads.exists_of_readMany h
  refine ⟨items, ⟨?_, ?_⟩, rfl⟩
  · rw [hlength, ← ofInt16_of_nonneg hcount, ofInt16_int16 hhead]
  · have hlt := (int16 head).toInt_lt
    omega

/-- Reading finds just the items that a payload of this form holds. -/
theorem readCounted_eq_ok_iff (hreads : ReadsBack read write meaning) :
    readCounted part refusal read payload = .ok (found, rest) ↔
      ∃ items, Counted write payload items rest ∧ items.map meaning = found := by
  constructor
  · exact counted_of_readCounted hreads
  · rintro ⟨items, hcounted, rfl⟩
    exact hcounted.readCounted_eq hreads part refusal

/-! ## Readers that forget the rest -/

theorem eq_map_readMany {many : Nat → Octets → Except Fault (List α)}
    (hzero : ∀ s, many 0 s = .ok [])
    (hsucc : ∀ count s, many (count + 1) s = (do
      let (first, s) ← read s
      let others ← many count s
      return first :: others))
    (count : Nat) (s : Octets) : many count s = (readMany read count s).map Prod.fst := by
  induction count generalizing s with
  | zero => exact hzero s
  | succ count ih =>
      rw [hsucc, readMany]
      cases read s with
      | error fault => rfl
      | ok found =>
          obtain ⟨first, t⟩ := found
          show (many count t >>= _) = Except.map _ (readMany read count t >>= _)
          rw [ih]
          cases readMany read count t with
          | error fault => rfl
          | ok found => rfl

theorem eq_map_readCounted {many : Nat → Octets → Except Fault (List α)}
    (hmany : ∀ count s, many count s = (readMany read count s).map Prod.fst) (payload : Octets) :
    (do
      let (head, s) ← field part 2 payload
      let count := int16 head
      if count < 0 then
        throw (.protocol (refusal count))
      many count.toInt.toNat s) = (readCounted part refusal read payload).map Prod.fst := by
  rw [readCounted]
  cases field part 2 payload with
  | error fault => rfl
  | ok found =>
      obtain ⟨head, s⟩ := found
      show (if int16 head < 0 then _ else many (int16 head).toInt.toNat s) =
        Except.map _ (if int16 head < 0 then _ else _)
      rw [hmany]
      split <;> rfl

/-! ## What a payload holds -/

/-- The items of a payload have one meaning only, and one rest follows them. -/
theorem Counted.unique {items' : List ι} {rest' : Octets} (hreads : ReadsBack read write meaning)
    (h : Counted write payload items rest) (h' : Counted write payload items' rest') :
    items'.map meaning = items.map meaning ∧ rest' = rest := by
  have hread := h.readCounted_eq hreads .dataRow .negativeColumnCount
  have hread' := h'.readCounted_eq hreads .dataRow .negativeColumnCount
  exact Prod.mk.inj (Except.ok.inj (hread'.symm.trans hread))

/-- Cut off before the end of its items, a payload is none. -/
theorem Counted.not_take {items' : List ι} {rest' : Octets} {n : Nat}
    (hreads : ReadsBack read write meaning) (h : Counted write payload items rest)
    (hn : n + rest.length < payload.length) : ¬Counted write (payload.take n) items' rest' := by
  intro h'
  have hwhole : Counted write payload items' (rest' ++ payload.drop n) := by
    refine ⟨?_, h'.length_le⟩
    calc
      payload = payload.take n ++ payload.drop n := (List.take_append_drop n payload).symm
      _ = bigEndian 2 items'.length ++ (items'.flatMap write ++ (rest' ++ payload.drop n)) := by
        rw [h'.payload_eq, List.append_assoc, List.append_assoc]
  have hrest := congrArg List.length (h.unique hreads hwhole).2
  rw [List.length_append, List.length_drop] at hrest
  omega

/-! ## Readers of whole payloads -/

/-- A reader of payloads accepts just those that hold some items, finds what these mean, and gives up
with a violation on all others, also on a payload that is cut off before the end of its items. -/
structure ReadsCounted (parse : Octets → Except Fault (List α)) (write : ι → Octets)
    (meaning : ι → α) : Prop where
  eq_ok_iff : ∀ payload found, parse payload = .ok found ↔
    ∃ items rest, Counted write payload items rest ∧ items.map meaning = found
  refused : ∀ payload, (∀ items rest, ¬Counted write payload items rest) →
    ∃ violation, parse payload = .error (.protocol violation)
  cut_off : ∀ payload items rest, Counted write payload items rest →
    ∀ n, n + rest.length < payload.length →
      ∃ violation, parse (payload.take n) = .error (.protocol violation)

theorem readsCounted_of_eq {parse : Octets → Except Fault (List α)}
    (hreads : ReadsBack read write meaning)
    (hparse : ∀ payload, parse payload = (readCounted part refusal read payload).map Prod.fst)
    (hfails : ∀ payload, FailsAs Fault.isProtocol (parse payload)) :
    ReadsCounted parse write meaning := by
  have hok (payload : Octets) (found : List α) : parse payload = .ok found ↔
      ∃ items rest, Counted write payload items rest ∧ items.map meaning = found := by
    rw [hparse]
    constructor
    · intro h
      obtain ⟨⟨all, rest⟩, hread, rfl⟩ := map_eq_ok_iff.mp h
      obtain ⟨items, hcounted, hmeaning⟩ := (readCounted_eq_ok_iff hreads).mp hread
      exact ⟨items, rest, hcounted, hmeaning⟩
    · rintro ⟨items, rest, hcounted, rfl⟩
      rw [hcounted.readCounted_eq hreads]
      rfl
  have hrefused (payload : Octets) (hnone : ∀ items rest, ¬Counted write payload items rest) :
      ∃ violation, parse payload = .error (.protocol violation) := by
    apply (hfails payload).exists_violation
    intro found hfound
    obtain ⟨items, rest, hcounted, -⟩ := (hok payload found).mp hfound
    exact hnone items rest hcounted
  refine ⟨hok, hrefused, ?_⟩
  intro payload items rest hcounted n hn
  exact hrefused _ fun items' rest' => hcounted.not_take hreads hn

end PgFrontend.Payload
