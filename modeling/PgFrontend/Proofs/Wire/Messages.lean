import PgFrontend.Proofs.Text.Utf8
import PgFrontend.Proofs.Wire.Reading
/-!
# Client messages read back

Messages are written one after another into a buffer that may hold something already.
`readFrames_writeTo` says that what the buffer held stays as it was, and that reading what was added
finds one frame for each message, from which the message can be told.
-/

namespace PgFrontend

open Octets

namespace ClientMessage

/-- A message as a frame. -/
def frame (m : ClientMessage) : Frame :=
  ⟨m.tag, m.payload⟩

theorem foldl_writeTo (messages : List ClientMessage) (held : Octets) :
    messages.foldl writeTo held = held ++ (messages.map frame).flatMap Frame.encode := by
  induction messages generalizing held with
  | nil => simp
  | cons m messages ih =>
      rw [List.foldl_cons, ih, writeTo_eq, List.map_cons, List.flatMap_cons, List.append_assoc]
      rfl

theorem divided_frames {messages : List ClientMessage} (h : ∀ m ∈ messages, m.frame.Fits) :
    Frame.Divided ((messages.map frame).flatMap Frame.encode) (messages.map frame) [] := by
  constructor
  · rw [List.append_nil]
  · intro f hf
    obtain ⟨m, hm, rfl⟩ := List.mem_map.mp hf
    exact h m hm
  · exact (Frame.torn_iff []).mpr ⟨_, rfl⟩

/-- What a frame has to hold so that this message can be told from it. -/
def Recovered (f : Frame) : ClientMessage → Prop
  | password data => f.tag = 0x70 ∧ f.payload = data
  | saslInitialResponse mechanism data =>
      f.tag = 0x70 ∧ ('\x00' ∉ mechanism.toList → ∃ name rest size,
        cstring? f.payload = some (name, rest) ∧ Utf8.decode name = .ok mechanism ∧
        field? 4 rest = some (size, data) ∧ (Payload.int32 size).toInt = data.length)
  | saslResponse data => f.tag = 0x70 ∧ f.payload = data
  | query sql =>
      f.tag = 0x51 ∧ ('\x00' ∉ sql.toList → ∃ text,
        f.payload = text ++ [0] ∧ 0 ∉ text ∧ Utf8.decode text = .ok sql)
  | terminate => f.tag = 0x58 ∧ f.payload = []

theorem recovered_frame {m : ClientMessage} (h : m.frame.Fits) : Recovered m.frame m := by
  cases m with
  | password data => exact ⟨rfl, rfl⟩
  | saslInitialResponse mechanism data =>
      refine ⟨rfl, fun hname => ?_⟩
      have hsize : data.length ≤ Frame.maxSize := by
        simp only [frame, Frame.Fits, payload, List.length_append, List.length_cons] at h
        omega
      refine ⟨ofString mechanism, bigEndian 4 data.length ++ data, bigEndian 4 data.length, ?_,
        Utf8.decode_ofString mechanism, field?_append data (length_bigEndian 4 _),
        Payload.int32_bigEndian hsize⟩
      have hpayload : (saslInitialResponse mechanism data).frame.payload =
          ofString mechanism ++ 0 :: (bigEndian 4 data.length ++ data) :=
        List.append_assoc ..
      rw [hpayload, cstring?_append _ (Utf8.zero_not_mem_ofString hname)]
  | saslResponse data => exact ⟨rfl, rfl⟩
  | query sql =>
      refine ⟨rfl, fun hsql => ?_⟩
      exact ⟨ofString sql, rfl, Utf8.zero_not_mem_ofString hsql, Utf8.decode_ofString sql⟩
  | terminate => exact ⟨rfl, rfl⟩

/-- **Reading undoes writing.**  Messages of lengths that frames have are written into one buffer, after
anything that it holds.  That stays as it was, and reading what was added, in whatever pieces it
arrives, finds just one frame for each message, in order, from which the message can be told; then the
stream is at its end and nothing is left over. -/
theorem readFrames_writeTo (held : Octets) {messages : List ClientMessage}
    (hfits : ∀ m ∈ messages, m.frame.Fits) :
    ∃ added, messages.foldl writeTo held = held ++ added ∧
      ∀ l : Link, l.unread = added → l.ending = .closed → l.interruption = none →
        ∃ frames l', l.readFrames = (frames, .fault (.io .earlyEnd), l') ∧
          Link.Took added l l' ∧ l'.unread = [] ∧
          frames = messages.map frame ∧ ∀ m ∈ messages, Recovered m.frame m := by
  refine ⟨_, foldl_writeTo messages held, ?_⟩
  intro l hunread hclosed hfree
  obtain ⟨l', hread, htook⟩ :=
    Link.readFrames_divided (hunread ▸ divided_frames hfits) hclosed hfree
  rw [Frame.tornOff_nil, List.append_nil] at htook
  refine ⟨_, l', hread, htook, ?_, rfl, fun m hm => recovered_frame (hfits m hm)⟩
  exact htook.unread_of_append (by rw [hunread, List.append_nil])

/-- Three messages after three octets; what was added arrives in two pieces. -/
theorem readFrames_writeTo_three :
    let messages := [saslInitialResponse "PLAIN" [1, 2], query "GO", terminate]
    let added : Octets := [112, 0, 0, 0, 16, 80, 76, 65, 73, 78, 0, 0, 0, 0, 2, 1, 2,
      81, 0, 0, 0, 7, 71, 79, 0, 88, 0, 0, 0, 4]
    (∀ m ∈ messages, m.frame.Fits) ∧ messages.foldl writeTo [7, 8, 9] = [7, 8, 9] ++ added ∧
      ∃ l', Link.readFrames { arrived := [added.take 7, added.drop 7] } =
          ([⟨112, [80, 76, 65, 73, 78, 0, 0, 0, 0, 2, 1, 2]⟩, ⟨81, [71, 79, 0]⟩, ⟨88, []⟩],
            .fault (.io .earlyEnd), l') ∧
        l'.unread = [] := by
  intro messages added
  have hfits : ∀ m ∈ messages, m.frame.Fits := by decide
  have hwritten : messages.foldl writeTo [7, 8, 9] = [7, 8, 9] ++ added := by decide
  obtain ⟨stream, hstream, hreads⟩ := readFrames_writeTo [7, 8, 9] hfits
  obtain rfl : added = stream := List.append_cancel_left (hwritten.symm.trans hstream)
  let l : Link := { arrived := [added.take 7, added.drop 7] }
  obtain ⟨_, l', hread, -, hleft, rfl, -⟩ := hreads l rfl rfl rfl
  exact ⟨hfits, hwritten, l', hread, hleft⟩

end ClientMessage

end PgFrontend
