import IntentGrammar.Random.Words

/-!
# ChaCha with twelve rounds

The stream cipher ChaCha run as a generator of random words.  A block of sixteen 32-bit words
comes from a key of eight words, a 64-bit block counter and a stream number that is always zero;
two consecutive words make one 64-bit word, the low half first.  A 64-bit seed is stretched to a
key by a congruential generator whose outputs are permuted.
-/

namespace IntentGrammar.ChaCha12

abbrev Block := Vector UInt32 16

def rotateLeft (x n : UInt32) : UInt32 := (x <<< n) ||| (x >>> (32 - n))

/-- One quarter round on four words. -/
def quarter (a b c d : UInt32) : UInt32 × UInt32 × UInt32 × UInt32 :=
  let a := a + b
  let d := rotateLeft (d ^^^ a) 16
  let c := c + d
  let b := rotateLeft (b ^^^ c) 12
  let a := a + b
  let d := rotateLeft (d ^^^ a) 8
  let c := c + d
  let b := rotateLeft (b ^^^ c) 7
  (a, b, c, d)

/-- The words with another one at a position. -/
def put {n : Nat} (words : Vector UInt32 n) (i : Fin n) (word : UInt32) : Vector UInt32 n :=
  words.set i word i.isLt

/-- A quarter round on the four positions given. -/
def Block.mix (s : Block) (i j k l : Fin 16) : Block :=
  let (a, b, c, d) := quarter (s.get i) (s.get j) (s.get k) (s.get l)
  put (put (put (put s i a) j b) k c) l d

/-- Four quarter rounds down the columns, then four along the diagonals. -/
def Block.doubleRound (s : Block) : Block :=
  let s := (((s.mix 0 4 8 12).mix 1 5 9 13).mix 2 6 10 14).mix 3 7 11 15
  (((s.mix 0 5 10 15).mix 1 6 11 12).mix 2 7 8 13).mix 3 4 9 14

/-- The block for a key and a counter. -/
def block (key : Vector UInt32 8) (counter : UInt64) : Block :=
  let constants : Vector UInt32 4 := #v[0x61707865, 0x3320646e, 0x79622d32, 0x6b206574]
  let place : Vector UInt32 4 := #v[counter.toUInt32, (counter >>> 32).toUInt32, 0, 0]
  let input : Vector UInt32 (4 + 8 + 4) := constants ++ key ++ place
  Vector.zipWith (· + ·) input ((List.range 6).foldl (fun s _ => Block.doubleRound s) input)

/-- Consecutive words in pairs, the low half first. -/
def pairs : List UInt32 → List UInt64
  | low :: high :: rest => (low.toUInt64 ||| (high.toUInt64 <<< 32)) :: pairs rest
  | _ => []

/-- A generator: the key, the counter of the next block and what is left of the last one. -/
structure Generator where
  key : Vector UInt32 8
  counter : UInt64
  pending : List UInt64

/-- The next 64-bit word. -/
def Generator.next (g : Generator) : UInt64 × Generator :=
  match g.pending with
  | word :: rest => (word, { g with pending := rest })
  | [] =>
    match pairs (block g.key g.counter).toList with
    | word :: rest => (word, { g with counter := g.counter + 1, pending := rest })
    | [] => (0, g)

instance : WordSource Generator := ⟨Generator.next⟩

/-- One step of the generator that stretches a seed. -/
def stretchStep (state : UInt64) : UInt64 := state * 6364136223846793005 + 11634580027462260723

/-- The output for a state: a shifted exclusive-or, rotated by the state's top bits. -/
def stretchOutput (state : UInt64) : UInt32 :=
  let x := (((state >>> 18) ^^^ state) >>> 27).toUInt32
  let n := (state >>> 59).toUInt32
  (x >>> n) ||| (x <<< ((32 - n) % 32))

/-- The next `count` outputs after a state. -/
def stretch : Nat → UInt64 → List UInt32
  | 0, _ => []
  | count + 1, state => stretchOutput (stretchStep state) :: stretch count (stretchStep state)

/-- The generator for a seed. -/
def Generator.ofSeed (seed : UInt64) : Generator :=
  let words := (stretch 8 seed).toArray
  { key := Vector.ofFn fun i => words.getD i 0, counter := 0, pending := [] }

end IntentGrammar.ChaCha12
