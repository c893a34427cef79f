/-!
# SHA-256

The hash function of FIPS 180-4 on lists of bytes.  A message is padded to whole blocks of 64
bytes; every block is mixed into eight chained words in 64 rounds.  The message schedule is kept
as a window of sixteen words: round `t` reads position `t % 16` and puts the word of round
`t + 16` in its place.
-/

namespace IntentGrammar.Sha256

/-- The chained words, `a` to `h`. -/
abbrev Chain := Vector UInt32 8

/-- The sixteen words of the schedule that the next rounds use. -/
abbrev Window := Vector UInt32 16

def initialChain : Chain :=
  #v[0x6a09e667, 0xbb67ae85, 0x3c6ef372, 0xa54ff53a, 0x510e527f, 0x9b05688c, 0x1f83d9ab, 0x5be0cd19]

def roundConstants : List UInt32 :=
  [0x428a2f98, 0x71374491, 0xb5c0fbcf, 0xe9b5dba5, 0x3956c25b, 0x59f111f1, 0x923f82a4, 0xab1c5ed5,
   0xd807aa98, 0x12835b01, 0x243185be, 0x550c7dc3, 0x72be5d74, 0x80deb1fe, 0x9bdc06a7, 0xc19bf174,
   0xe49b69c1, 0xefbe4786, 0x0fc19dc6, 0x240ca1cc, 0x2de92c6f, 0x4a7484aa, 0x5cb0a9dc, 0x76f988da,
   0x983e5152, 0xa831c66d, 0xb00327c8, 0xbf597fc7, 0xc6e00bf3, 0xd5a79147, 0x06ca6351, 0x14292967,
   0x27b70a85, 0x2e1b2138, 0x4d2c6dfc, 0x53380d13, 0x650a7354, 0x766a0abb, 0x81c2c92e, 0x92722c85,
   0xa2bfe8a1, 0xa81a664b, 0xc24b8b70, 0xc76c51a3, 0xd192e819, 0xd6990624, 0xf40e3585, 0x106aa070,
   0x19a4c116, 0x1e376c08, 0x2748774c, 0x34b0bcb5, 0x391c0cb3, 0x4ed8aa4a, 0x5b9cca4f, 0x682e6ff3,
   0x748f82ee, 0x78a5636f, 0x84c87814, 0x8cc70208, 0x90befffa, 0xa4506ceb, 0xbef9a3f7, 0xc67178f2]

def rotateRight (x n : UInt32) : UInt32 := (x >>> n) ||| (x <<< (32 - n))

def smallSigma0 (x : UInt32) : UInt32 := rotateRight x 7 ^^^ rotateRight x 18 ^^^ (x >>> 3)

def smallSigma1 (x : UInt32) : UInt32 := rotateRight x 17 ^^^ rotateRight x 19 ^^^ (x >>> 10)

def bigSigma0 (x : UInt32) : UInt32 := rotateRight x 2 ^^^ rotateRight x 13 ^^^ rotateRight x 22

def bigSigma1 (x : UInt32) : UInt32 := rotateRight x 6 ^^^ rotateRight x 11 ^^^ rotateRight x 25

/-- The word of the schedule used in round `t`, and the window of the rounds after it. -/
def Window.advance (w : Window) (t : Nat) : UInt32 × Window :=
  let word (i : Nat) : UInt32 := w.get ⟨(t + i) % 16, Nat.mod_lt _ (by decide)⟩
  let later := smallSigma1 (word 14) + word 9 + smallSigma0 (word 1) + word 0
  (word 0, w.set (t % 16) later (Nat.mod_lt _ (by decide)))

/-- One round with its constant and its word. -/
def Chain.round (s : Chain) (k word : UInt32) : Chain :=
  let (a, b, c, d) := (s[0], s[1], s[2], s[3])
  let (e, f, g, h) := (s[4], s[5], s[6], s[7])
  let choose := (e &&& f) ^^^ (~~~e &&& g)
  let majority := (a &&& b) ^^^ (a &&& c) ^^^ (b &&& c)
  let t1 := h + bigSigma1 e + choose + k + word
  let t2 := bigSigma0 a + majority
  #v[t1 + t2, a, b, c, d + t1, e, f, g]

/-- The 64 rounds from a window that holds a block. -/
def Chain.rounds (s : Chain) (w : Window) : Chain :=
  let step (state : Chain × Window) (round : UInt32 × Nat) : Chain × Window :=
    let (word, window) := Window.advance state.2 round.2
    (Chain.round state.1 round.1 word, window)
  (roundConstants.zipIdx.foldl step (s, w)).1

/-- The big-endian word at byte `i`, zeros standing for bytes that are not there. -/
def wordAt (block : Array UInt8) (i : Nat) : UInt32 :=
  let byte (j : Nat) : UInt32 := (block.getD (i + j) 0).toUInt32
  (byte 0 <<< 24) ||| (byte 1 <<< 16) ||| (byte 2 <<< 8) ||| byte 3

/-- A block mixed into the chain. -/
def Chain.compress (s : Chain) (block : Array UInt8) : Chain :=
  let window : Window := Vector.ofFn fun i => wordAt block (4 * i)
  Vector.zipWith (· + ·) s (s.rounds window)

/-- The lowest `count` bytes of `n`, the highest first. -/
def bigEndian (count n : Nat) : List UInt8 :=
  (List.range count).reverse.map fun i => (n >>> (8 * i)).toUInt8

/-- The message, a one bit, zeros up to a whole block less eight bytes, and the length in bits. -/
def pad (message : List UInt8) : List UInt8 :=
  let zeros := (119 - message.length % 64) % 64
  message ++ 0x80 :: List.replicate zeros 0 ++ bigEndian 8 (8 * message.length)

/-- The message cut into blocks of 64 bytes. -/
def blocks (message : List UInt8) : List (Array UInt8) :=
  let padded := (pad message).toArray
  (List.range (padded.size / 64)).map fun i => padded.extract (64 * i) (64 * i + 64)

/-- The 32 bytes of the hash. -/
def hash (message : List UInt8) : List UInt8 :=
  let chain := (blocks message).foldl Chain.compress initialChain
  chain.toList.flatMap fun word => bigEndian 4 word.toNat

/-- The hash in lower-case hexadecimal. -/
def hex (message : List UInt8) : String :=
  let digits (b : UInt8) : List Char := [Nat.digitChar (b.toNat / 16), Nat.digitChar (b.toNat % 16)]
  String.ofList ((hash message).flatMap digits)

/-- Every hash has 32 bytes. -/
theorem length_hash (message : List UInt8) : (hash message).length = 32 := by
  simp [hash, bigEndian, List.length_flatMap, List.map_const']

end IntentGrammar.Sha256
