import PgFrontend.Text.Utf8
/-!
# Reading back what was written in UTF-8

Decoding undoes encoding, for any characters and with anything after them.  The octets of one
character are followed through `step`: the first one says how many are owed and what they may be,
and each of the others adds six bits.
-/

namespace PgFrontend.Utf8

open Octets

theorem first_one : ∀ n < 0x80, first (UInt8.ofNat n) = ([.char (Char.ofNat n)], none) := by
  decide

theorem first_two : ∀ n < 0x20, 2 ≤ n →
    first (UInt8.ofNat (n + 0xC0)) = ([], some ⟨1, 1, 0x80, 0xBF, n⟩) := by
  decide

theorem first_three : ∀ n < 0x10, first (UInt8.ofNat (n + 0xE0)) =
    ([], some ⟨1, 2, if n = 0 then 0xA0 else 0x80, if n = 13 then 0x9F else 0xBF, n⟩) := by
  decide

theorem first_four : ∀ n < 5, first (UInt8.ofNat (n + 0xF0)) =
    ([], some ⟨1, 3, if n = 0 then 0x90 else 0x80, if n = 4 then 0x8F else 0xBF, n⟩) := by
  decide

theorem toNat_trailing {n : Nat} (hn : n < 64) : (UInt8.ofNat (n + 0x80)).toNat = n + 0x80 := by
  rw [UInt8.toNat_ofNat', Nat.mod_eq_of_lt (by omega)]

theorem trailing_mem_range {n : Nat} {low high : UInt8} (hn : n < 64)
    (hlow : low.toNat ≤ n + 0x80) (hhigh : n + 0x80 ≤ high.toNat) :
    low ≤ UInt8.ofNat (n + 0x80) ∧ UInt8.ofNat (n + 0x80) ≤ high := by
  rw [UInt8.le_iff_toNat_le, UInt8.le_iff_toNat_le, toNat_trailing hn]
  exact ⟨hlow, hhigh⟩

/-- An octet that is owed adds six bits. -/
theorem piecesAfter_owed {seen owed n value : Nat} {low high : UInt8} (s : Octets) (hn : n < 64)
    (howed : owed ≠ 1) (hlow : low.toNat ≤ n + 0x80) (hhigh : n + 0x80 ≤ high.toNat) :
    piecesAfter (some ⟨seen, owed, low, high, value⟩) (UInt8.ofNat (n + 0x80) :: s) =
      piecesAfter (some ⟨seen + 1, owed - 1, 0x80, 0xBF, value * 64 + n⟩) s := by
  rw [piecesAfter, step, if_pos (trailing_mem_range hn hlow hhigh), if_neg howed,
    toNat_trailing hn, Nat.add_sub_cancel]
  rfl

/-- The last octet that is owed completes the character. -/
theorem piecesAfter_last {seen n value : Nat} {low high : UInt8} (s : Octets) (hn : n < 64)
    (hlow : low.toNat ≤ n + 0x80) (hhigh : n + 0x80 ≤ high.toNat) :
    piecesAfter (some ⟨seen, 1, low, high, value⟩) (UInt8.ofNat (n + 0x80) :: s) =
      .char (Char.ofNat (value * 64 + n)) :: piecesAfter none s := by
  rw [piecesAfter, step, if_pos (trailing_mem_range hn hlow hhigh), if_pos rfl,
    toNat_trailing hn, Nat.add_sub_cancel]
  rfl

theorem piecesAfter_first {b : UInt8} {begun : Begun} (s : Octets)
    (hfirst : first b = ([], some begun)) :
    piecesAfter none (b :: s) = piecesAfter (some begun) s := by
  rw [piecesAfter, step, hfirst]
  rfl

theorem piecesAfter_encode (c : Char) (s : Octets) :
    piecesAfter none (String.utf8EncodeChar c ++ s) = .char c :: piecesAfter none s := by
  have hvalue : Char.ofNat c.val.toNat = c := Char.ofNat_toNat c
  have hvalid : c.val.toNat < 0xD800 ∨ 0xDFFF < c.val.toNat ∧ c.val.toNat < 0x110000 := c.valid
  unfold String.utf8EncodeChar
  generalize c.val.toNat = v at hvalue hvalid
  dsimp only
  split
  next hsize =>
    rw [List.singleton_append, piecesAfter, step, first_one v (by omega), hvalue]
    rfl
  split
  next hlarge hsize =>
    have hnumber : v / 64 % 32 * 64 + v % 64 = v := by omega
    simp only [List.cons_append, List.nil_append]
    rw [piecesAfter_first _ (first_two _ (by omega) (by omega)),
      piecesAfter_last s (by omega) (show 128 ≤ _ by omega) (show _ ≤ 191 by omega), hnumber, hvalue]
  -- The bounds on the second octet only keep out numbers that are too small, or surrogates.
  split
  next hlarge hsize =>
    have hnumber : (v / 4096 % 16 * 64 + v / 64 % 64) * 64 + v % 64 = v := by omega
    simp only [List.cons_append, List.nil_append]
    rw [piecesAfter_first _ (first_three _ (by omega)),
      piecesAfter_owed _ (by omega) (by decide),
      piecesAfter_last s (by omega) (show 128 ≤ _ by omega) (show _ ≤ 191 by omega), hnumber, hvalue]
    · split
      · show 160 ≤ _
        omega
      · show 128 ≤ _
        omega
    · split
      · show _ ≤ 159
        omega
      · show _ ≤ 191
        omega
  next hlarge =>
    have hnumber :
        ((v / 262144 % 8 * 64 + v / 4096 % 64) * 64 + v / 64 % 64) * 64 + v % 64 = v := by
      omega
    simp only [List.cons_append, List.nil_append]
    rw [piecesAfter_first _ (first_four _ (by omega)),
      piecesAfter_owed _ (by omega) (by decide),
      piecesAfter_owed _ (by omega) (by decide) (show 128 ≤ _ by omega) (show _ ≤ 191 by omega),
      piecesAfter_last s (by omega) (show 128 ≤ _ by omega) (show _ ≤ 191 by omega), hnumber, hvalue]
    · split
      · show 144 ≤ _
        omega
      · show 128 ≤ _
        omega
    · split
      · show _ ≤ 143
        omega
      · show _ ≤ 191
        omega

theorem pieces_ofChars (cs : List Char) : pieces (ofChars cs) = cs.map .char := by
  induction cs with
  | nil => rfl
  | cons c cs ih =>
      have hencode := piecesAfter_encode c (ofChars cs)
      rw [List.map_cons, ← ih]
      exact hencode

theorem characters_map_char (index : Nat) (cs : List Char) :
    characters index (cs.map .char) = .ok cs := by
  induction cs generalizing index with
  | nil => rfl
  | cons c cs ih =>
      rw [List.map_cons, characters, ih]
      rfl

theorem decode_ofChars (cs : List Char) : decode (ofChars cs) = .ok (String.ofList cs) := by
  rw [decode, pieces_ofChars, characters_map_char]
  rfl

theorem decode_ofString (s : String) : decode (ofString s) = .ok s := by
  rw [ofString, decode_ofChars, String.ofList_toList]

theorem zero_ne_ofNat {n : Nat} (hpos : 0 < n) (hlt : n < 256) : (0 : UInt8) ≠ UInt8.ofNat n := by
  intro h
  have htoNat := congrArg UInt8.toNat h
  rw [UInt8.toNat_ofNat', Nat.mod_eq_of_lt hlt] at htoNat
  exact Nat.ne_of_lt hpos htoNat

/-- Only the zero character has a zero octet. -/
theorem zero_not_mem_utf8EncodeChar {c : Char} (h : c ≠ '\x00') :
    0 ∉ String.utf8EncodeChar c := by
  have hpos : 0 < c.val.toNat := by
    apply Nat.pos_of_ne_zero
    intro hzero
    exact h (Char.ext (UInt32.toNat_inj.mp hzero))
  -- The octets are sums of a marker and some bits, and a marker is missing only from the first kind.
  have hmarked (bits marker : Nat) (hmarker : 0 < marker) (hlt : bits + marker < 256) :
      0 ≠ UInt8.ofNat (bits + marker) :=
    zero_ne_ofNat (Nat.add_pos_right bits hmarker) hlt
  unfold String.utf8EncodeChar
  generalize c.val.toNat = v at hpos
  dsimp only
  split
  next => simpa using zero_ne_ofNat hpos (by omega)
  split
  next =>
    simp only [List.mem_cons, List.not_mem_nil, or_false, not_or]
    exact ⟨hmarked _ _ (by decide) (by omega), hmarked _ _ (by decide) (by omega)⟩
  split
  next =>
    simp only [List.mem_cons, List.not_mem_nil, or_false, not_or]
    exact ⟨hmarked _ _ (by decide) (by omega), hmarked _ _ (by decide) (by omega),
      hmarked _ _ (by decide) (by omega)⟩
  next =>
    simp only [List.mem_cons, List.not_mem_nil, or_false, not_or]
    exact ⟨hmarked _ _ (by decide) (by omega), hmarked _ _ (by decide) (by omega),
      hmarked _ _ (by decide) (by omega), hmarked _ _ (by decide) (by omega)⟩

theorem zero_not_mem_ofString {s : String} (h : '\x00' ∉ s.toList) : 0 ∉ ofString s := by
  intro hmem
  obtain ⟨c, hc, hzero⟩ := List.mem_flatMap.mp hmem
  exact zero_not_mem_utf8EncodeChar (fun heq => h (heq ▸ hc)) hzero

theorem zero_mem_ofString {s : String} (h : '\x00' ∈ s.toList) : 0 ∈ ofString s :=
  List.mem_flatMap.mpr ⟨_, h, by decide⟩

end PgFrontend.Utf8
