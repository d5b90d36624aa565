import PgFrontend.Octets
/-!
# MD5

The message is padded to whole blocks of 64 octets, and each block is mixed into four words in 64
steps. Words are read and written with the least significant octet first.
-/

namespace PgFrontend.Md5

open Octets

structure Chain where
  a : UInt32
  b : UInt32
  c : UInt32
  d : UInt32
  deriving Repr, DecidableEq

namespace Chain

def initial : Chain :=
  ⟨0x67452301, 0xefcdab89, 0x98badcfe, 0x10325476⟩

def add (x y : Chain) : Chain :=
  ⟨x.a + y.a, x.b + y.b, x.c + y.c, x.d + y.d⟩

def words (x : Chain) : List UInt32 :=
  [x.a, x.b, x.c, x.d]

end Chain

def constants : List UInt32 :=
  [0xd76aa478, 0xe8c7b756, 0x242070db, 0xc1bdceee, 0xf57c0faf, 0x4787c62a, 0xa8304613, 0xfd469501,
   0x698098d8, 0x8b44f7af, 0xffff5bb1, 0x895cd7be, 0x6b901122, 0xfd987193, 0xa679438e, 0x49b40821,
   0xf61e2562, 0xc040b340, 0x265e5a51, 0xe9b6c7aa, 0xd62f105d, 0x02441453, 0xd8a1e681, 0xe7d3fbc8,
   0x21e1cde6, 0xc33707d6, 0xf4d50d87, 0x455a14ed, 0xa9e3e905, 0xfcefa3f8, 0x676f02d9, 0x8d2a4c8a,
   0xfffa3942, 0x8771f681, 0x6d9d6122, 0xfde5380c, 0xa4beea44, 0x4bdecfa9, 0xf6bb4b60, 0xbebfbc70,
   0x289b7ec6, 0xeaa127fa, 0xd4ef3085, 0x04881d05, 0xd9d4d039, 0xe6db99e5, 0x1fa27cf8, 0xc4ac5665,
   0xf4292244, 0x432aff97, 0xab9423a7, 0xfc93a039, 0x655b59c3, 0x8f0ccc92, 0xffeff47d, 0x85845dd1,
   0x6fa87e4f, 0xfe2ce6e0, 0xa3014314, 0x4e0811a1, 0xf7537e82, 0xbd3af235, 0x2ad7d2bb, 0xeb86d391]

def rotation (i : Nat) : UInt32 :=
  match i / 16, i % 4 with
  | 0, 0 => 7 | 0, 1 => 12 | 0, 2 => 17 | 0, _ => 22
  | 1, 0 => 5 | 1, 1 => 9 | 1, 2 => 14 | 1, _ => 20
  | 2, 0 => 4 | 2, 1 => 11 | 2, 2 => 16 | 2, _ => 23
  | _, 0 => 6 | _, 1 => 10 | _, 2 => 15 | _, _ => 21

/-- How step `i` mixes three of the words, and which word of the block it takes. -/
def mix (i : Nat) (x : Chain) : UInt32 × Nat :=
  match i / 16 with
  | 0 => ((x.b &&& x.c) ||| (~~~x.b &&& x.d), i)
  | 1 => ((x.d &&& x.b) ||| (~~~x.d &&& x.c), (5 * i + 1) % 16)
  | 2 => (x.b ^^^ x.c ^^^ x.d, (3 * i + 5) % 16)
  | _ => (x.c ^^^ (x.b ||| ~~~x.d), (7 * i) % 16)

/-- Rotation to the left, for amounts between 1 and 31. -/
def rotateLeft (x n : UInt32) : UInt32 :=
  (x <<< n) ||| (x >>> (32 - n))

/-- The steps from the `i`th on, with the given constants, over the words of a block. -/
def steps (words : List UInt32) : Nat → List UInt32 → Chain → Chain
  | _, [], x => x
  | i, k :: ks, x =>
      let (mixed, index) := mix i x
      let sum := x.a + mixed + k + words.getD index 0
      steps words (i + 1) ks ⟨x.d, x.b + rotateLeft sum (rotation i), x.b, x.c⟩

def wordsOf : Octets → List UInt32
  | a :: b :: c :: d :: rest => UInt32.ofNat (toNat [d, c, b, a]) :: wordsOf rest
  | _ => []

def compress (x : Chain) (block : Octets) : Chain :=
  x.add (steps (wordsOf block) 0 constants x)

/-- A message followed by a one bit, zero bits, and its length in bits, in whole blocks. -/
def padded (message : Octets) : Octets :=
  let zeros := (119 - message.length % 64) % 64
  message ++ 0x80 :: List.replicate zeros 0 ++ (bigEndian 8 (message.length * 8)).reverse

def chain (x : Chain) (s : Octets) : Chain :=
  if 64 ≤ s.length then chain (compress x (s.take 64)) (s.drop 64) else x
termination_by s.length
decreasing_by simp; omega

def digest (message : Octets) : Octets :=
  (chain .initial (padded message)).words.flatMap fun w => (bigEndian 4 w.toNat).reverse

@[simp] theorem length_digest (message : Octets) : (digest message).length = 16 := by
  simp [digest, Chain.words]

end PgFrontend.Md5
