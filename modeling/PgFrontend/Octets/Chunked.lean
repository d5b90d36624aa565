import PgFrontend.Octets
/-!
# Chunked buffers

A run of octets that is kept in the chunks in which it came, so that adding to it copies nothing. It
is read from the front: a look at the first chunk, a number of octets skipped, or a number of octets
copied out across chunks.

`toOctets` is what a buffer stands for, and each operation has a lemma that says what it does to it.
-/

namespace PgFrontend

/-- Octets in chunks, none of them empty, with their number. -/
structure ChunkedBuffer where
  chunks : List Octets := []
  remaining : Nat := 0
  deriving Repr, DecidableEq

namespace ChunkedBuffer

def toOctets (b : ChunkedBuffer) : Octets :=
  b.chunks.flatten

/-- The buffer with one more chunk. An empty chunk is not kept. -/
def add (b : ChunkedBuffer) (chunk : Octets) : ChunkedBuffer :=
  if chunk.isEmpty then b
  else { chunks := b.chunks ++ [chunk], remaining := b.remaining + chunk.length }

@[simp] theorem toOctets_add (b : ChunkedBuffer) (chunk : Octets) :
    (b.add chunk).toOctets = b.toOctets ++ chunk := by
  unfold add
  split <;> simp_all [toOctets]

def ofChunks (chunks : List Octets) : ChunkedBuffer :=
  chunks.foldl add {}

def first (b : ChunkedBuffer) : Octets :=
  b.chunks.headD []

def dropChunks : Nat → List Octets → List Octets
  | _, [] => []
  | 0, chunks => chunks
  | n + 1, chunk :: chunks =>
      if n + 1 < chunk.length then chunk.drop (n + 1) :: chunks
      else dropChunks (n + 1 - chunk.length) chunks

theorem flatten_dropChunks (n : Nat) (chunks : List Octets) :
    (dropChunks n chunks).flatten = chunks.flatten.drop n := by
  induction chunks generalizing n with
  | nil => simp [dropChunks]
  | cons chunk chunks ih =>
      cases n with
      | zero => simp [dropChunks]
      | succ n =>
          unfold dropChunks
          split
          next h =>
            rw [List.flatten_cons, List.flatten_cons, List.drop_append_of_le_length (by omega)]
          next h =>
            have all : chunk.drop (n + 1) = [] := List.drop_eq_nil_of_le (by omega)
            rw [ih, List.flatten_cons, List.drop_append, all, List.nil_append]

def skip (b : ChunkedBuffer) (n : Nat) : ChunkedBuffer :=
  { chunks := dropChunks n b.chunks, remaining := b.remaining - n }

@[simp] theorem toOctets_skip (b : ChunkedBuffer) (n : Nat) :
    (b.skip n).toOctets = b.toOctets.drop n :=
  flatten_dropChunks n b.chunks

@[simp] theorem skip_zero (b : ChunkedBuffer) : b.skip 0 = b := by
  obtain ⟨_ | ⟨chunk, chunks⟩, remaining⟩ := b <;> rfl

def advance? (b : ChunkedBuffer) (n : Nat) : Option ChunkedBuffer :=
  if n ≤ b.remaining then some (b.skip n) else none

/-- Copies `n` octets from the front and skips them, by looking at one first chunk after another. It
gets no further where a first chunk shows nothing. -/
def copyOut (b : ChunkedBuffer) (n : Nat) : Option (Octets × ChunkedBuffer) :=
  if n = 0 then some ([], b)
  else
    let size := min b.first.length n
    if 0 < size then do
      let rest ← b.advance? size
      let (more, rest) ← copyOut rest (n - size)
      return (b.first.take size ++ more, rest)
    else none
termination_by n

def take? (b : ChunkedBuffer) (n : Nat) : Option (Octets × ChunkedBuffer) :=
  if n ≤ b.remaining then b.copyOut n else none

end ChunkedBuffer

end PgFrontend
