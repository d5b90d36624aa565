import PgFrontend.Proofs.Fault
import PgFrontend.Proofs.Text.Utf8
/-!
# What is read as UTF-8

The converse of `pieces_ofChars`: octets whose pieces are all characters are what these characters
are written as.  So decoding accepts just the octets that some text is written as, and a text without
a replacement character is read leniently from no other octets than its own.
-/

namespace PgFrontend.Utf8

open Octets

/-! ## Characters by the number of their octets -/

theorem toNat_val_ofNat {n : Nat} (h : n.isValidChar) : (Char.ofNat n).val.toNat = n := by
  rw [Char.ofNat, dif_pos h]
  rfl

theorem encode_one {a : Nat} (ha : a < 0x80) :
    String.utf8EncodeChar (Char.ofNat a) = [UInt8.ofNat a] := by
  have hvalue : (Char.ofNat a).val.toNat = a := toNat_val_ofNat (Or.inl (by omega))
  unfold String.utf8EncodeChar
  rw [hvalue]
  exact if_pos (by omega)

theorem encode_two {a b : Nat} (ha : 2 ≤ a) (ha' : a < 0x20) (hb : b < 64) :
    String.utf8EncodeChar (Char.ofNat (a * 64 + b)) =
      [UInt8.ofNat (a + 0xC0), UInt8.ofNat (b + 0x80)] := by
  have hvalue := toNat_val_ofNat (n := a * 64 + b) (Or.inl (by omega))
  have hhigh : (a * 64 + b) / 64 % 32 = a := by omega
  have hlow : (a * 64 + b) % 64 = b := by omega
  unfold String.utf8EncodeChar
  rw [hvalue]
  dsimp only
  rw [if_neg (by omega), if_pos (by omega), hhigh, hlow]

/-- The bounds on the second octet keep the number from being too small, or a surrogate. -/
theorem encode_three {a b c : Nat} (ha : a < 0x10) (hb : b < 64) (hc : c < 64)
    (hlong : a = 0 → 32 ≤ b) (hscalar : a = 13 → b < 32) :
    String.utf8EncodeChar (Char.ofNat ((a * 64 + b) * 64 + c)) =
      [UInt8.ofNat (a + 0xE0), UInt8.ofNat (b + 0x80), UInt8.ofNat (c + 0x80)] := by
  have hvalid : ((a * 64 + b) * 64 + c).isValidChar := by
    unfold Nat.isValidChar
    omega
  have hvalue := toNat_val_ofNat hvalid
  have hhigh : ((a * 64 + b) * 64 + c) / 4096 % 16 = a := by omega
  have hmiddle : ((a * 64 + b) * 64 + c) / 64 % 64 = b := by omega
  have hlow : ((a * 64 + b) * 64 + c) % 64 = c := by omega
  unfold String.utf8EncodeChar
  rw [hvalue]
  dsimp only
  rw [if_neg (by omega), if_neg (by omega), if_pos (by omega), hhigh, hmiddle, hlow]

/-- The bounds on the second octet keep the number from being too small, or too large. -/
theorem encode_four {a b c d : Nat} (ha : a < 5) (hb : b < 64) (hc : c < 64) (hd : d < 64)
    (hlong : a = 0 → 16 ≤ b) (hscalar : a = 4 → b < 16) :
    String.utf8EncodeChar (Char.ofNat (((a * 64 + b) * 64 + c) * 64 + d)) =
      [UInt8.ofNat (a + 0xF0), UInt8.ofNat (b + 0x80), UInt8.ofNat (c + 0x80),
        UInt8.ofNat (d + 0x80)] := by
  have hvalid : (((a * 64 + b) * 64 + c) * 64 + d).isValidChar := by
    unfold Nat.isValidChar
    omega
  have hvalue := toNat_val_ofNat hvalid
  have hhigh : (((a * 64 + b) * 64 + c) * 64 + d) / 262144 % 8 = a := by omega
  have hsecond : (((a * 64 + b) * 64 + c) * 64 + d) / 4096 % 64 = b := by omega
  have hthird : (((a * 64 + b) * 64 + c) * 64 + d) / 64 % 64 = c := by omega
  have hlow : (((a * 64 + b) * 64 + c) * 64 + d) % 64 = d := by omega
  unfold String.utf8EncodeChar
  rw [hvalue]
  dsimp only
  rw [if_neg (by omega), if_neg (by omega), if_neg (by omega), hhigh, hsecond, hthird, hlow]

/-! ## Octets that a character is read from -/

variable {s : Octets} {c : Char} {rest : List Piece}

/-- A begun character that is completed has its next octet within its bounds. -/
theorem next_of_piecesAfter {p : Begun} (hlow : 0x80 ≤ p.low.toNat) (hhigh : p.high.toNat ≤ 0xBF)
    (h : piecesAfter (some p) s = .char c :: rest) :
    ∃ n r, n < 64 ∧ p.low.toNat ≤ n + 0x80 ∧ n + 0x80 ≤ p.high.toNat ∧
      s = UInt8.ofNat (n + 0x80) :: r := by
  cases s with
  | nil => cases h
  | cons b r =>
      rw [piecesAfter, step] at h
      by_cases hrange : p.low ≤ b ∧ b ≤ p.high
      · obtain ⟨hge, hle⟩ := hrange
        rw [UInt8.le_iff_toNat_le] at hge hle
        have hback : b.toNat - 0x80 + 0x80 = b.toNat := by omega
        refine ⟨b.toNat - 0x80, r, by omega, by omega, by omega, ?_⟩
        rw [hback, UInt8.ofNat_toNat]
      · rw [if_neg hrange] at h
        cases h

theorem last_of_piecesAfter {seen value : Nat}
    (h : piecesAfter (some ⟨seen, 1, 0x80, 0xBF, value⟩) s = .char c :: rest) :
    ∃ n r, n < 64 ∧ s = UInt8.ofNat (n + 0x80) :: r ∧ c = Char.ofNat (value * 64 + n) ∧
      rest = piecesAfter none r := by
  obtain ⟨n, r, hn, hlow, hhigh, rfl⟩ := next_of_piecesAfter (Nat.le_refl _) (Nat.le_refl _) h
  rw [piecesAfter_last r hn hlow hhigh] at h
  cases h
  exact ⟨n, r, hn, rfl, rfl, rfl⟩

theorem owed_of_piecesAfter {seen owed value : Nat} {low high : UInt8} (howed : owed ≠ 1)
    (hlow : 0x80 ≤ low.toNat) (hhigh : high.toNat ≤ 0xBF)
    (h : piecesAfter (some ⟨seen, owed, low, high, value⟩) s = .char c :: rest) :
    ∃ n r, n < 64 ∧ low.toNat ≤ n + 0x80 ∧ n + 0x80 ≤ high.toNat ∧
      s = UInt8.ofNat (n + 0x80) :: r ∧
      piecesAfter (some ⟨seen + 1, owed - 1, 0x80, 0xBF, value * 64 + n⟩) r = .char c :: rest := by
  obtain ⟨n, r, hn, hge, hle, rfl⟩ := next_of_piecesAfter hlow hhigh h
  rw [piecesAfter_owed r hn howed hge hle] at h
  exact ⟨n, r, hn, hge, hle, rfl, h⟩

/-- The kinds of octets that a piece may begin with. -/
theorem first_cases (b : UInt8) :
    (∃ n < 0x80, b = UInt8.ofNat n) ∨ first b = ([.invalid 1], none) ∨
      (∃ n < 0x20, 2 ≤ n ∧ b = UInt8.ofNat (n + 0xC0)) ∨
      (∃ n < 0x10, b = UInt8.ofNat (n + 0xE0)) ∨ ∃ n < 5, b = UInt8.ofNat (n + 0xF0) := by
  have hback {n : Nat} (h : n ≤ b.toNat) : b = UInt8.ofNat (b.toNat - n + n) := by
    rw [Nat.sub_add_cancel h, UInt8.ofNat_toNat]
  have h80 : b < 0x80 ↔ b.toNat < 0x80 := UInt8.lt_iff_toNat_lt
  have hC2 : b < 0xC2 ↔ b.toNat < 0xC2 := UInt8.lt_iff_toNat_lt
  have hE0 : b < 0xE0 ↔ b.toNat < 0xE0 := UInt8.lt_iff_toNat_lt
  have hF0 : b < 0xF0 ↔ b.toNat < 0xF0 := UInt8.lt_iff_toNat_lt
  have hF5 : b < 0xF5 ↔ b.toNat < 0xF5 := UInt8.lt_iff_toNat_lt
  by_cases hone : b.toNat < 0x80
  · exact .inl ⟨b.toNat, hone, UInt8.ofNat_toNat.symm⟩
  by_cases htail : b.toNat < 0xC2
  · rw [first, if_neg (by rwa [h80]), if_pos (by rwa [hC2])]
    exact .inr (.inl rfl)
  by_cases htwo : b.toNat < 0xE0
  · exact .inr (.inr (.inl ⟨b.toNat - 0xC0, by omega, by omega, hback (by omega)⟩))
  by_cases hthree : b.toNat < 0xF0
  · exact .inr (.inr (.inr (.inl ⟨b.toNat - 0xE0, by omega, hback (by omega)⟩)))
  by_cases hfour : b.toNat < 0xF5
  · exact .inr (.inr (.inr (.inr ⟨b.toNat - 0xF0, by omega, hback (by omega)⟩)))
  · rw [first, if_neg (by rwa [h80]), if_neg (by rwa [hC2]), if_neg (by rwa [hE0]),
      if_neg (by rwa [hF0]), if_neg (by rwa [hF5])]
    exact .inr (.inl rfl)

/-- A first piece that is a character was written as the octets that it was read from. -/
theorem eq_encode_of_piecesAfter (h : piecesAfter none s = .char c :: rest) :
    ∃ r, s = String.utf8EncodeChar c ++ r ∧ rest = piecesAfter none r := by
  cases s with
  | nil => cases h
  | cons b s =>
      rcases first_cases b with ⟨n, hn, rfl⟩ | hinvalid | ⟨n, hn, hlong, rfl⟩ | ⟨n, hn, rfl⟩ |
        ⟨n, hn, rfl⟩
      · rw [piecesAfter, step, first_one n hn] at h
        cases h
        exact ⟨s, by rw [encode_one hn]; rfl, rfl⟩
      · rw [piecesAfter, step, hinvalid] at h
        cases h
      · rw [piecesAfter_first s (first_two n hn hlong)] at h
        obtain ⟨m, r, hm, rfl, rfl, rfl⟩ := last_of_piecesAfter h
        exact ⟨r, by rw [encode_two hlong hn hm]; rfl, rfl⟩
      · rw [piecesAfter_first s (first_three n hn)] at h
        obtain ⟨m, s₁, hm, hge, hle, rfl, hmore⟩ := owed_of_piecesAfter (by decide)
          (by split <;> decide) (by split <;> decide) h
        obtain ⟨k, r, hk, rfl, rfl, rfl⟩ := last_of_piecesAfter hmore
        refine ⟨r, ?_, rfl⟩
        rw [encode_three hn hm hk]
        · rfl
        · rintro rfl
          have hbound : 160 ≤ m + 128 := hge
          omega
        · rintro rfl
          have hbound : m + 128 ≤ 159 := hle
          omega
      · rw [piecesAfter_first s (first_four n hn)] at h
        obtain ⟨m, s₁, hm, hge, hle, rfl, hmore⟩ := owed_of_piecesAfter (by decide)
          (by split <;> decide) (by split <;> decide) h
        obtain ⟨k, s₂, hk, -, -, rfl, hlast⟩ := owed_of_piecesAfter (by decide) (Nat.le_refl _)
          (Nat.le_refl _) hmore
        obtain ⟨l, r, hl, rfl, rfl, rfl⟩ := last_of_piecesAfter hlast
        refine ⟨r, ?_, rfl⟩
        rw [encode_four hn hm hk hl]
        · rfl
        · rintro rfl
          have hbound : 144 ≤ m + 128 := hge
          omega
        · rintro rfl
          have hbound : m + 128 ≤ 143 := hle
          omega

/-! ## Texts -/

theorem piecesAfter_begun_ne_nil (p : Begun) (s : Octets) : piecesAfter (some p) s ≠ [] := by
  induction s generalizing p with
  | nil => exact List.cons_ne_nil _ _
  | cons b s ih =>
      rw [piecesAfter, step]
      by_cases hrange : p.low ≤ b ∧ b ≤ p.high
      · rw [if_pos hrange]
        by_cases howed : p.owed = 1
        · rw [if_pos howed]
          exact List.cons_ne_nil _ _
        · rw [if_neg howed]
          exact ih _
      · rw [if_neg hrange]
        exact List.cons_ne_nil _ _

theorem piecesAfter_ne_nil {s : Octets} (h : s ≠ []) : piecesAfter none s ≠ [] := by
  cases s with
  | nil => exact absurd rfl h
  | cons b s =>
      rcases first_cases b with ⟨n, hn, rfl⟩ | hinvalid | ⟨n, hn, hlong, rfl⟩ | ⟨n, hn, rfl⟩ |
        ⟨n, hn, rfl⟩
      · rw [piecesAfter, step, first_one n hn]
        exact List.cons_ne_nil _ _
      · rw [piecesAfter, step, hinvalid]
        exact List.cons_ne_nil _ _
      · rw [piecesAfter_first s (first_two n hn hlong)]
        exact piecesAfter_begun_ne_nil _ s
      · rw [piecesAfter_first s (first_three n hn)]
        exact piecesAfter_begun_ne_nil _ s
      · rw [piecesAfter_first s (first_four n hn)]
        exact piecesAfter_begun_ne_nil _ s

/-- Just the octets that some characters are written as are read as these. -/
theorem pieces_eq_map_char_iff {cs : List Char} : pieces s = cs.map .char ↔ s = ofChars cs := by
  constructor
  · intro h
    induction cs generalizing s with
    | nil =>
        exact Decidable.byContradiction fun hne => piecesAfter_ne_nil hne h
    | cons c cs ih =>
        obtain ⟨r, rfl, hrest⟩ := eq_encode_of_piecesAfter h
        rw [ih hrest.symm]
        rfl
  · rintro rfl
    exact pieces_ofChars cs

theorem characters_eq_ok {index : Nat} {found : List Piece} {cs : List Char}
    (h : characters index found = .ok cs) : found = cs.map .char := by
  induction found generalizing index cs with
  | nil =>
      cases h
      rfl
  | cons piece found ih =>
      cases piece with
      | char c =>
          obtain ⟨more, hrest, rfl⟩ := map_eq_ok_iff.mp h
          rw [ih hrest, List.map_cons]
      | invalid size => cases h
      | incomplete size => cases h

theorem decode_eq_ok_iff {t : String} : decode s = .ok t ↔ s = ofString t := by
  constructor
  · intro h
    obtain ⟨cs, hcharacters, rfl⟩ := map_eq_ok_iff.mp h
    rw [ofString, String.toList_ofList]
    exact pieces_eq_map_char_iff.mp (characters_eq_ok hcharacters)
  · rintro rfl
    exact decode_ofString t

/-- The character that a piece is read as leniently. -/
def Piece.lenient : Piece → Char
  | char c => c
  | invalid _ => replacement
  | incomplete _ => replacement

theorem lossy_eq (s : Octets) : lossy s = String.ofList ((pieces s).map Piece.lenient) := rfl

theorem eq_map_char_of_lenient {found : List Piece} (h : replacement ∉ found.map Piece.lenient) :
    found = (found.map Piece.lenient).map .char := by
  induction found with
  | nil => rfl
  | cons piece found ih =>
      rw [List.map_cons, List.mem_cons, not_or] at h
      obtain ⟨hpiece, hfound⟩ := h
      rw [List.map_cons, List.map_cons, ← ih hfound]
      cases piece with
      | char c => rfl
      | invalid size => exact absurd rfl hpiece
      | incomplete size => exact absurd rfl hpiece

/-- A text without a replacement character is read leniently from its own octets only. -/
theorem lossy_eq_iff {t : String} (h : replacement ∉ t.toList) : lossy s = t ↔ s = ofString t := by
  constructor
  · rintro rfl
    rw [lossy_eq, String.toList_ofList] at h
    rw [lossy_eq, ofString, String.toList_ofList]
    exact pieces_eq_map_char_iff.mp (eq_map_char_of_lenient h)
  · rintro rfl
    have hread : t.toList.map (Piece.lenient ∘ .char) = t.toList := List.map_id _
    rw [lossy_eq, ofString, pieces_ofChars, List.map_map, hread, String.ofList_toList]

end PgFrontend.Utf8
