import PgFrontend.Auth.Scram
import PgFrontend.Proofs.Text.Base64
import PgFrontend.Proofs.Text.Split
import PgFrontend.Proofs.Text.Utf8
/-!
# User names in a client's first message

A comma ends an attribute and an equals sign begins an escape, so a user name has both written as
escapes.  This takes two passes, and the second one leaves the escapes of the first as they are: the
equations of `escapeUser` say that together they are one pass.  `first_names_user_and_nonce` says
that a server which cuts the message at its commas, and undoes the escapes in one pass, learns the
user and the nonce.
-/

namespace PgFrontend.Scram

open Octets

variable {old c : Char} {new cs : List Char}

theorem replaceEach_self (old : Char) (new cs : List Char) :
    replaceEach old new (old :: cs) = new ++ replaceEach old new cs := by
  simp [replaceEach]

theorem replaceEach_of_ne (h : c ≠ old) :
    replaceEach old new (c :: cs) = c :: replaceEach old new cs := by
  simp [replaceEach, h]

theorem not_mem_replaceEach (h : old ∉ new) (cs : List Char) : old ∉ replaceEach old new cs := by
  rw [replaceEach, List.mem_flatMap]
  rintro ⟨c, -, hold⟩
  split at hold
  · exact h hold
  next hne => exact hne (List.mem_singleton.mp hold).symm

/-! ## Escapes -/

@[simp] theorem escapeUser_nil : escapeUser [] = [] := rfl

theorem escapeUser_equals (cs : List Char) :
    escapeUser ('=' :: cs) = '=' :: '3' :: 'D' :: escapeUser cs := by
  rw [escapeUser, replaceEach_self, List.cons_append, List.cons_append, List.cons_append,
    List.nil_append, replaceEach_of_ne (by decide), replaceEach_of_ne (by decide),
    replaceEach_of_ne (by decide), ← escapeUser]

theorem escapeUser_comma (cs : List Char) :
    escapeUser (',' :: cs) = '=' :: '2' :: 'C' :: escapeUser cs := by
  rw [escapeUser, replaceEach_of_ne (by decide), replaceEach_self, ← escapeUser]
  rfl

theorem escapeUser_other (hequals : c ≠ '=') (hcomma : c ≠ ',') :
    escapeUser (c :: cs) = c :: escapeUser cs := by
  rw [escapeUser, replaceEach_of_ne hequals, replaceEach_of_ne hcomma, ← escapeUser]

theorem comma_not_mem_escapeUser (cs : List Char) : ',' ∉ escapeUser cs :=
  not_mem_replaceEach (by decide) _

/-- Every equals sign begins the escape of a comma or of an equals sign. -/
def EqualsEscape (cs : List Char) : Prop :=
  ∀ before after, cs = before ++ '=' :: after → ['2', 'C'] <+: after ∨ ['3', 'D'] <+: after

theorem EqualsEscape.cons (h : EqualsEscape cs) (hc : c ≠ '=') : EqualsEscape (c :: cs) := by
  intro before after heq
  cases before with
  | nil => exact absurd (List.cons.inj heq).1 hc
  | cons d before => exact h before after (List.cons.inj heq).2

theorem EqualsEscape.escape (h : EqualsEscape cs) (hcs : ['2', 'C'] <+: cs ∨ ['3', 'D'] <+: cs) :
    EqualsEscape ('=' :: cs) := by
  intro before after heq
  cases before with
  | nil => exact (List.cons.inj heq).2 ▸ hcs
  | cons d before => exact h before after (List.cons.inj heq).2

theorem equalsEscape_escapeUser (cs : List Char) : EqualsEscape (escapeUser cs) := by
  induction cs with
  | nil =>
      intro before after heq
      simp at heq
  | cons c cs ih =>
      by_cases hequals : c = '='
      · rw [hequals, escapeUser_equals]
        exact ((ih.cons (by decide)).cons (by decide)).escape (.inr ⟨_, rfl⟩)
      by_cases hcomma : c = ','
      · rw [hcomma, escapeUser_comma]
        exact ((ih.cons (by decide)).cons (by decide)).escape (.inl ⟨_, rfl⟩)
      · rw [escapeUser_other hequals hcomma]
        exact ih.cons hequals

/-- A text with each escape replaced by what it stands for, from left to right. -/
def unescapeUser : List Char → List Char
  | [] => []
  | '=' :: '2' :: 'C' :: cs => ',' :: unescapeUser cs
  | '=' :: '3' :: 'D' :: cs => '=' :: unescapeUser cs
  | c :: cs => c :: unescapeUser cs

theorem unescapeUser_of_ne (hc : c ≠ '=') (cs : List Char) :
    unescapeUser (c :: cs) = c :: unescapeUser cs := by
  rw [unescapeUser]
  · rintro rest rfl
    exact absurd rfl hc
  · rintro rest rfl
    exact absurd rfl hc

theorem unescapeUser_escapeUser (cs : List Char) : unescapeUser (escapeUser cs) = cs := by
  induction cs with
  | nil => rfl
  | cons c cs ih =>
      by_cases hequals : c = '='
      · rw [hequals, escapeUser_equals, unescapeUser, ih]
      by_cases hcomma : c = ','
      · rw [hcomma, escapeUser_comma, unescapeUser, ih]
      · rw [escapeUser_other hequals hcomma, unescapeUser_of_ne hequals, ih]

/-! ## The message -/

theorem firstBare_eq (s : Scram) :
    s.firstBare =
      ('n' :: '=' :: escapeUser s.user.toList) ++ ',' :: ('r' :: '=' :: s.nonce.toList) := by
  simp [firstBare]

theorem cutAt_firstBare {s : Scram} (hnonce : ',' ∉ s.nonce.toList) :
    cutAt ',' s.firstBare =
      ['n' :: '=' :: escapeUser s.user.toList, 'r' :: '=' :: s.nonce.toList] := by
  rw [firstBare_eq, cutAt_append, cutAt_eq_singleton]
  · simp [hnonce]
  · simp [comma_not_mem_escapeUser]

/-- Before the attributes there are two flags, of which the second is empty. -/
theorem cutAt_flags (cs : List Char) :
    cutAt ',' ("n,,".toList ++ cs) = ['n'] :: [] :: cutAt ',' cs := by
  have hflags : "n,,".toList ++ cs = ['n'] ++ ',' :: ([] ++ ',' :: cs) := by
    simp
  rw [hflags, cutAt_append (by decide), cutAt_append List.not_mem_nil]

/-- The user and the nonce in a client's first message. -/
def readFirst (message : Octets) : Option (String × String) :=
  match (Utf8.decode message).toOption.map fun text => cutAt ',' text.toList with
  | some [['n'], [], 'n' :: '=' :: user, 'r' :: '=' :: nonce] =>
      some (String.ofList (unescapeUser user), String.ofList nonce)
  | _ => none

theorem readFirst_eq {s : Scram} (hnonce : ',' ∉ s.nonce.toList) :
    readFirst (ofChars ("n,,".toList ++ s.firstBare)) = some (s.user, s.nonce) := by
  rw [readFirst, Utf8.decode_ofChars, Except.toOption, Option.map_some, String.toList_ofList,
    cutAt_flags, cutAt_firstBare hnonce]
  simp only [unescapeUser_escapeUser, String.ofList_toList]

/-- Clients with different users or nonces begin with different messages. -/
theorem eq_of_first_eq {s t : Scram} (hs : ',' ∉ s.nonce.toList) (ht : ',' ∉ t.nonce.toList)
    (h : s.first.1 = t.first.1) : (s.user, s.nonce) = (t.user, t.nonce) := by
  have hsame : ofChars ("n,,".toList ++ s.firstBare) = ofChars ("n,,".toList ++ t.firstBare) :=
    (ClientMessage.saslInitialResponse.inj h).2
  have hread := readFirst_eq hs
  rw [hsame, readFirst_eq ht] at hread
  exact (Option.some.inj hread).symm

theorem respond_offer {s : Scram} (hinitial : s.state = .initial) (offer : List String) :
    s.respond (.sasl offer) = .ok (some s.first.1, s.first.2) := by
  rw [respond]
  exact hinitial

/-- **The client's first message tells the server who the user is, whatever the name looks like.**
A name is written without a comma, with each equals sign at the beginning of an escape, and undoing
the escapes from left to right gives the name back.  So the message that a client sends when it is
asked to begin has four parts between its commas, and the user and the nonce are found in the last
two of them.  No client with another user or another nonce sends the same message. -/
theorem first_names_user_and_nonce {s : Scram} (hinitial : s.state = .initial)
    (hnonce : ',' ∉ s.nonce.toList) (offer : List String) :
    ',' ∉ escapeUser s.user.toList ∧
      (∀ before after, escapeUser s.user.toList = before ++ '=' :: after →
        "2C".toList <+: after ∨ "3D".toList <+: after) ∧
      unescapeUser (escapeUser s.user.toList) = s.user.toList ∧
      ∃ data text next,
        s.respond (.sasl offer) = .ok (some (.saslInitialResponse mechanism data), next) ∧
        Utf8.decode data = .ok text ∧
        cutAt ',' text.toList = ["n".toList, "".toList,
          "n=".toList ++ escapeUser s.user.toList, "r=".toList ++ s.nonce.toList] ∧
        readFirst data = some (s.user, s.nonce) ∧
        ∀ (other : Scram) (otherOffer : List String), other.state = .initial →
          ',' ∉ other.nonce.toList → (other.user, other.nonce) ≠ (s.user, s.nonce) →
          ∃ reply otherNext, other.respond (.sasl otherOffer) = .ok (some reply, otherNext) ∧
            reply ≠ .saslInitialResponse mechanism data := by
  have htwo : "2C".toList = ['2', 'C'] := by simp
  have hthree : "3D".toList = ['3', 'D'] := by simp
  refine ⟨comma_not_mem_escapeUser _, ?_, unescapeUser_escapeUser _,
    ofChars ("n,,".toList ++ s.firstBare), String.ofList ("n,,".toList ++ s.firstBare), s.first.2,
    respond_offer hinitial offer, Utf8.decode_ofChars _, ?_, readFirst_eq hnonce, ?_⟩
  · rw [htwo, hthree]
    exact equalsEscape_escapeUser s.user.toList
  · rw [String.toList_ofList, cutAt_flags, cutAt_firstBare hnonce]
    simp
  · intro other otherOffer hother hotherNonce hne
    refine ⟨other.first.1, other.first.2, respond_offer hother otherOffer, fun hsame => hne ?_⟩
    exact eq_of_first_eq hotherNonce hnonce hsame

/-- A name that looks as if it were escaped already is not taken for the name that it looks like. -/
theorem first_names_user_and_nonce_escapes :
    let s : Scram := { user := "=2C,=", password := "pencil", nonce := "r=x" }
    let other : Scram := { user := ",,=", password := "pencil", nonce := "r=x" }
    s.state = .initial ∧ ',' ∉ s.nonce.toList ∧ other.state = .initial ∧
      ',' ∉ other.nonce.toList ∧ (other.user, other.nonce) ≠ (s.user, s.nonce) ∧
      escapeUser s.user.toList = "=3D2C=2C=3D".toList ∧
      ∃ data next reply otherNext,
        s.respond (.sasl [mechanism]) =
          .ok (some (.saslInitialResponse mechanism data), next) ∧
        readFirst data = some ("=2C,=", "r=x") ∧
        other.respond (.sasl [mechanism]) = .ok (some reply, otherNext) ∧
        reply ≠ .saslInitialResponse mechanism data := by
  intro s other
  have hnonce : ',' ∉ s.nonce.toList := by decide
  have hne : (other.user, other.nonce) ≠ (s.user, s.nonce) := by decide
  obtain ⟨-, -, -, data, text, next, hrespond, -, -, hread, hothers⟩ :=
    first_names_user_and_nonce (s := s) rfl hnonce [mechanism]
  obtain ⟨reply, otherNext, hother, hdifferent⟩ := hothers other [mechanism] rfl hnonce hne
  exact ⟨rfl, hnonce, rfl, hnonce, hne, by decide, data, next, reply, otherNext, hrespond, hread,
    hother, hdifferent⟩

end PgFrontend.Scram
