import PgFrontend.Proofs.Wire.Transfers
/-!
# Decoding a stream

What a server's stream means as octets, without any reading: whole frames, and then the fault with
which the octets after them are no frame.  Reading frames over a link whose other side is closed
agrees with it, in whatever pieces the octets arrive.
-/

namespace PgFrontend

open Octets

theorem Payload.toInt_int32 {s : Octets} (h : s.length = 4) (hnonneg : 0 ≤ (int32 s).toInt) :
    (int32 s).toInt = toNat s := by
  have hbits : (int32 s).toInt = (BitVec.ofNat 32 (toNat s)).toInt := rfl
  have hmod : toNat s % 2 ^ 32 = toNat s := Nat.mod_eq_of_lt (toNat_lt_of_length_four h)
  rw [hbits, BitVec.toInt_eq_toNat_cond, BitVec.toNat_ofNat, hmod] at hnonneg ⊢
  apply if_pos
  -- Otherwise the number is read as a negative one.
  rcases Nat.lt_or_ge (2 * toNat s) (2 ^ 32) with hsmall | hlarge
  · exact hsmall
  · rw [if_neg (Nat.not_lt.mpr hlarge)] at hnonneg
    omega

namespace Frame

/-- The first frame of a stream, and what follows it. -/
def decode (s : Octets) : Except Fault (Frame × Octets) :=
  match field? headerSize s with
  | none => .error (.io .earlyEnd)
  | some (header, s) =>
      match payloadSize header with
      | .error fault => .error fault
      | .ok size =>
          match field? size s with
          | none => .error (.io .earlyEnd)
          | some (payload, rest) => .ok ({ tag := header.headD 0, payload }, rest)

/-- The length that the header at the beginning of a stream announces. -/
def announced (s : Octets) : Int32 :=
  Payload.int32 ((s.take headerSize).drop 1)

/-- A whole header stands at the beginning of a stream, and announces a length that no frame has. -/
def Misannounced (s : Octets) : Prop :=
  headerSize ≤ s.length ∧ ((announced s).toInt < 4 ∨ maxSize < (announced s).toInt)

instance : DecidablePred Misannounced :=
  fun s => inferInstanceAs
    (Decidable (headerSize ≤ s.length ∧ ((announced s).toInt < 4 ∨ maxSize < (announced s).toInt)))

/-- The fault with which a closed stream does not begin with a frame. -/
def tornFault (s : Octets) : Fault :=
  if Misannounced s then .protocol (.frameLength (announced s)) else .io .earlyEnd

/-- The octets that are read before it is known that a stream does not begin with a frame. -/
def tornOff (s : Octets) : Octets :=
  if Misannounced s then s.take headerSize else s

@[simp] theorem tornOff_nil : tornOff [] = [] := by
  unfold tornOff
  split <;> rfl

theorem announced_append {header : Octets} (hheader : header.length = headerSize) (s : Octets) :
    announced (header ++ s) = Payload.int32 (header.drop 1) := by
  rw [announced, ← hheader, List.take_left]

theorem misannounced_iff {header s : Octets} (hheader : header.length = headerSize) :
    Misannounced (header ++ s) ↔ ∃ fault, payloadSize header = .error fault := by
  have hwhole : headerSize ≤ (header ++ s).length := by
    rw [List.length_append]
    omega
  unfold Misannounced payloadSize
  rw [announced_append hheader]
  dsimp only
  split
  next hbad => exact iff_of_true ⟨hwhole, hbad⟩ ⟨_, rfl⟩
  next hfine => exact iff_of_false (fun h => hfine h.2) nofun

theorem eq_tornFault {s : Octets} {fault : Fault} (h : decode s = .error fault) :
    fault = tornFault s := by
  unfold decode at h
  unfold tornFault
  split at h
  next hheader =>
    cases h
    have hshort := field?_eq_none_iff.mp hheader
    rw [if_neg fun hbad => Nat.not_lt.mpr hbad.1 hshort]
  next header s' hheader =>
    obtain ⟨rfl, hlength⟩ := field?_eq_some hheader
    split at h
    next found hsize =>
      cases h
      rw [if_pos ((misannounced_iff hlength).mpr ⟨_, hsize⟩), announced_append hlength]
      unfold payloadSize at hsize
      dsimp only at hsize
      split at hsize
      · cases hsize
        rfl
      · cases hsize
    next size hsize =>
      split at h
      next hpayload =>
        cases h
        refine (if_neg fun hbad => ?_).symm
        obtain ⟨fault, hfault⟩ := (misannounced_iff hlength).mp hbad
        cases hsize.symm.trans hfault
      · cases h

theorem encode_of_payloadSize {header payload : Octets} (hheader : header.length = headerSize)
    (h : payloadSize header = .ok payload.length) :
    (Frame.mk (header.headD 0) payload).encode = header ++ payload ∧
      (Frame.mk (header.headD 0) payload).Fits := by
  obtain _ | ⟨tag, size⟩ := header
  · cases hheader
  have hsize : size.length = 4 := Nat.succ.inj hheader
  unfold payloadSize at h
  dsimp only at h
  rw [List.drop_one, List.tail_cons] at h
  split at h
  · cases h
  next hbounds =>
    have hlength := Except.ok.inj h
    have hnat := Payload.toInt_int32 hsize (by omega)
    have hpayload : payload.length + 4 = toNat size := by omega
    constructor
    · show tag :: bigEndian 4 (payload.length + 4) ++ payload = _
      rw [hpayload, show bigEndian 4 (toNat size) = size from hsize ▸ bigEndian_toNat size]
    · show payload.length + 4 ≤ maxSize
      omega

theorem decode_encode {f : Frame} (h : f.Fits) (r : Octets) :
    decode (f.encode ++ r) = .ok (f, r) := by
  have hsplit : f.encode ++ r =
      (f.tag :: bigEndian 4 (f.payload.length + 4)) ++ (f.payload ++ r) := by
    rw [encode, List.append_assoc]
  have hheader : (f.tag :: bigEndian 4 (f.payload.length + 4)).length = headerSize := by
    rw [List.length_cons, length_bigEndian]
    rfl
  rw [decode, hsplit, field?_append _ hheader]
  simp only [payloadSize_header h, field?_append r rfl, List.headD_cons]

theorem decode_eq_ok {s r : Octets} {f : Frame} (h : decode s = .ok (f, r)) :
    s = f.encode ++ r ∧ f.Fits := by
  unfold decode at h
  split at h
  · cases h
  next header s' hheader =>
    obtain ⟨rfl, hlength⟩ := field?_eq_some hheader
    split at h
    · cases h
    next size hsize =>
      split at h
      · cases h
      next payload rest hpayload =>
        obtain ⟨rfl, rfl⟩ := field?_eq_some hpayload
        obtain ⟨hencode, hfits⟩ := encode_of_payloadSize hlength hsize
        cases h
        exact ⟨by rw [hencode, List.append_assoc], hfits⟩

theorem length_lt_of_decode {s r : Octets} {f : Frame} (h : decode s = .ok (f, r)) :
    r.length < s.length := by
  rw [(decode_eq_ok h).1, encode, List.length_append, List.length_append, List.length_cons]
  omega

/-- All frames at the beginning of a stream, and the fault with which the rest is none. -/
def decodeAll (s : Octets) : List Frame × Fault :=
  match _decoded : decode s with
  | .error fault => ([], fault)
  | .ok (f, rest) => ((decodeAll rest).1.cons f, (decodeAll rest).2)
termination_by s.length
decreasing_by all_goals exact length_lt_of_decode _decoded

theorem decodeAll_torn {s : Octets} {fault : Fault} (h : decode s = .error fault) :
    decodeAll s = ([], fault) := by
  rw [decodeAll]
  split
  next herror =>
    cases h.symm.trans herror
    rfl
  next hok => cases h.symm.trans hok

theorem decodeAll_cons {f : Frame} {s r : Octets} (h : decode s = .ok (f, r)) :
    decodeAll s = (f :: (decodeAll r).1, (decodeAll r).2) := by
  rw [decodeAll]
  split
  next herror => cases h.symm.trans herror
  next hok =>
    cases h.symm.trans hok
    rfl

theorem decodeAll_flatMap {frames : List Frame} {tail : Octets} {fault : Fault}
    (hfits : ∀ f ∈ frames, f.Fits) (h : decode tail = .error fault) :
    decodeAll (frames.flatMap encode ++ tail) = (frames, fault) := by
  induction frames with
  | nil => exact decodeAll_torn h
  | cons f frames ih =>
      rw [List.forall_mem_cons] at hfits
      rw [List.flatMap_cons, List.append_assoc, decodeAll_cons (decode_encode hfits.1 _),
        ih hfits.2]

/-- A stream is its frames, and after them something that is no frame. -/
theorem decodeAll_eq {s : Octets} {frames : List Frame} {fault : Fault}
    (h : decodeAll s = (frames, fault)) :
    (∀ f ∈ frames, f.Fits) ∧
      ∃ tail, s = frames.flatMap encode ++ tail ∧ decode tail = .error fault := by
  induction frames generalizing s with
  | nil =>
      cases hdecode : decode s with
      | error found =>
          cases (decodeAll_torn hdecode).symm.trans h
          exact ⟨nofun, s, rfl, hdecode⟩
      | ok found => cases (decodeAll_cons hdecode).symm.trans h
  | cons f frames ih =>
      cases hdecode : decode s with
      | error found => cases (decodeAll_torn hdecode).symm.trans h
      | ok found =>
          obtain ⟨g, r⟩ := found
          obtain ⟨rfl, hfits⟩ := decode_eq_ok hdecode
          rw [decodeAll_cons hdecode] at h
          obtain ⟨hhead, hfault⟩ := Prod.mk.inj h
          obtain ⟨rfl, hframes⟩ := List.cons.inj hhead
          obtain ⟨hrest, tail, rfl, htail⟩ := ih (Prod.ext hframes hfault)
          refine ⟨List.forall_mem_cons.mpr ⟨hfits, hrest⟩, tail, ?_, htail⟩
          rw [List.flatMap_cons, List.append_assoc]

end Frame

namespace Link

/-! ## Reading what is not there -/

/-- A read of more than there is takes all of it, and then ends as the link does. -/
theorem readPieces_short {size : Nat} {l : Link} (pieces : List Octets)
    (hpieces : l.arrived = pieces) (hshort : l.unread.length < size)
    (hfree : l.interruption = none) :
    ∃ l', readPieces size pieces l = .error l.ending.halt l' ∧ Took l.unread l l' := by
  induction pieces generalizing size l with
  | nil =>
      have hnothing : l.unread = [] := by
        rw [unread, hpieces]
        rfl
      refine ⟨l, ?_, hnothing ▸ .refl l⟩
      rw [readPieces, if_neg (by omega), bind_of_ok (pause_of_none hfree)]
      rfl
  | cons piece pieces ih =>
      rw [readPieces, if_neg (by omega)]
      by_cases hempty : piece = []
      · subst hempty
        have hskip := took_skip hpieces
        have hsame : Link.unread { l with arrived := pieces } = l.unread := hskip.unread_eq.symm
        obtain ⟨l', hread, htook⟩ :=
          ih (l := { l with arrived := pieces }) rfl (hsame ▸ hshort) hfree
        exact ⟨l', hread, hsame ▸ hskip.trans htook⟩
      rw [if_neg (by rwa [List.isEmpty_iff]), bind_of_ok (pause_of_none hfree)]
      obtain ⟨l₁, htaken, harrived, htook⟩ := takeIn_took hpieces size
      have hstream : l.unread = piece ++ pieces.flatten := by
        rw [unread, hpieces, List.flatten_cons]
      have hle : piece.length ≤ size := by
        rw [hstream, List.length_append] at hshort
        omega
      rw [bind_of_ok htaken]
      rw [List.take_of_length_le hle] at htook ⊢
      rw [List.drop_eq_nil_of_le hle, List.isEmpty_nil, if_pos rfl] at harrived
      have hleft : l₁.unread.length < size - piece.length := by
        rw [htook.unread_eq, List.length_append] at hshort
        omega
      obtain ⟨l', hread, htook'⟩ := ih harrived hleft (htook.interruption_eq.trans hfree)
      rw [bind_of_error hread, htook.ending_eq]
      exact ⟨l', rfl, htook.unread_eq ▸ htook.trans htook'⟩

theorem readExactly_short {size : Nat} {l : Link} (hshort : l.unread.length < size)
    (hfree : l.interruption = none) :
    ∃ l', readExactly size l = .error l.ending.halt l' ∧ Took l.unread l l' :=
  readPieces_short l.arrived rfl hshort hfree

/-- Over octets that do not begin with a frame, reading one fails as decoding it does if the header
is at fault, and otherwise ends as the link does, with nothing left to read. -/
theorem readFrame_tornOff {l : Link} {fault : Fault} (hfree : l.interruption = none)
    (h : Frame.decode l.unread = .error fault) :
    ∃ l', readFrame l =
        .error (if Frame.Misannounced l.unread then .fault fault else l.ending.halt) l' ∧
      Took (Frame.tornOff l.unread) l l' := by
  unfold Frame.decode at h
  unfold Frame.tornOff
  split at h
  next hheader =>
    have hshort := field?_eq_none_iff.mp hheader
    have hfine : ¬Frame.Misannounced l.unread := fun hbad => Nat.not_lt.mpr hbad.1 hshort
    obtain ⟨l', hread, htook⟩ := readExactly_short hshort hfree
    rw [if_neg hfine, if_neg hfine]
    exact ⟨l', by rw [readFrame, bind_of_error hread], htook⟩
  next header s hheader =>
    obtain ⟨hstream, hlength⟩ := field?_eq_some hheader
    obtain ⟨l₁, hread₁, htook₁⟩ := readExactly_took hstream hfree
    have hunread₁ := htook₁.unread_of_append hstream
    have hbad : Frame.Misannounced l.unread ↔ _ := hstream ▸ Frame.misannounced_iff hlength
    rw [hlength] at hread₁
    split at h
    next found hsize =>
      cases h
      have hrefused : check (.error fault : Except Fault Nat) l₁ = .error (.fault fault) l₁ := rfl
      rw [if_pos (hbad.mpr ⟨_, hsize⟩), if_pos (hbad.mpr ⟨_, hsize⟩)]
      refine ⟨l₁, by rw [readFrame, bind_of_ok hread₁, hsize, bind_of_error hrefused], ?_⟩
      rw [hstream, ← hlength, List.take_left]
      exact htook₁
    next size hsize =>
      have hfine : ¬Frame.Misannounced l.unread := by
        rw [hbad, hsize]
        rintro ⟨other, hother⟩
        cases hother
      rw [if_neg hfine, if_neg hfine]
      split at h
      next hpayload =>
        have hshort := field?_eq_none_iff.mp hpayload
        rw [← hunread₁] at hshort
        obtain ⟨l', hread, htook⟩ :=
          readExactly_short hshort (htook₁.interruption_eq.trans hfree)
        have hchecked : check (.ok size) l₁ = .ok size l₁ := rfl
        refine ⟨l', ?_, ?_⟩
        · rw [readFrame, bind_of_ok hread₁, hsize, bind_of_ok hchecked, bind_of_error hread,
            htook₁.ending_eq]
        · rw [htook₁.unread_eq]
          exact htook₁.trans htook
      · cases h

/-- Reading a frame that is not there fails as decoding it does. -/
theorem readFrame_torn {l : Link} {fault : Fault} (hclosed : l.ending = .closed)
    (hfree : l.interruption = none) (h : Frame.decode l.unread = .error fault) :
    ∃ taken l', readFrame l = .error (.fault fault) l' ∧ Took taken l l' := by
  obtain ⟨l', hread, htook⟩ := readFrame_tornOff hfree h
  refine ⟨_, l', ?_, htook⟩
  rw [hread, Frame.eq_tornFault h, hclosed]
  unfold Frame.tornFault
  split <;> rfl

end Link

end PgFrontend
