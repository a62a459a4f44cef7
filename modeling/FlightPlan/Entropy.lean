/-!
# `FlightPlan.Entropy`: streams of random words

Random choices are drawn from a stream of 64-bit words. `Entropy.unit` turns a
word into a double that is at least zero and below one, by putting its upper
bits behind the point of a number from one to two.

`Entropy.ofSeed` is a stream that a seed determines. The seed is stretched to a
256-bit key by a linear congruential generator with permuted output, and the
words are those of the ChaCha stream cipher with twelve rounds under that key,
counting blocks from zero. `Entropy.ofWords` goes around a list of given words.
-/

set_option autoImplicit false

namespace FlightPlan

/-- A stream of random words. -/
abbrev Entropy := Nat → UInt64

namespace Entropy

/-- The double of `[0, 1)` that a word stands for. -/
def unit (word : UInt64) : Float :=
  Float.ofBits (word >>> 12 ||| 0x3FF0000000000000) - 1.0

/-- The doubles of `[0, 1)` that the words of a stream stand for. -/
def units (entropy : Entropy) (n : Nat) : Float :=
  unit (entropy n)

/-- The given words, over and over again. -/
def ofWords (words : Array UInt64) : Entropy :=
  fun n => words.getD (n % words.size) 0

/-! ### Keys from seeds -/

/-- The next state of the generator that stretches seeds. -/
def nextState (state : UInt64) : UInt64 :=
  state * 6364136223846793005 + 11634580027462260723

/-- The word turned right by some bits. -/
def rotateRight (word : UInt32) (bits : UInt32) : UInt32 :=
  word >>> bits ||| word <<< ((32 - bits) % 32)

/-- The output of a state: its upper half is folded over, and its uppermost bits
say how far the result is turned. -/
def outputOf (state : UInt64) : UInt32 :=
  rotateRight (((state >>> 18) ^^^ state) >>> 27).toUInt32 (state >>> 59).toUInt32

/-- The outputs of the next states. -/
def stretch : Nat → UInt64 → List UInt32
  | 0, _ => []
  | count + 1, state =>
    let next := nextState state
    outputOf next :: stretch count next

/-- The key of a seed. -/
def keyOfSeed (seed : UInt64) : List UInt32 :=
  stretch 8 seed

/-! ### The stream cipher -/

/-- The word turned left by some bits. -/
def rotateLeft (word : UInt32) (bits : UInt32) : UInt32 :=
  rotateRight word (32 - bits)

/-- A block of sixteen words. -/
abbrev Block := Vector UInt32 16

/-- Four words of a block stirred into each other. -/
def quarterRound (s : Block) (a b c d : Fin 16) : Block :=
  let s := s.set a (s[a] + s[b])
  let s := s.set d (rotateLeft (s[d] ^^^ s[a]) 16)
  let s := s.set c (s[c] + s[d])
  let s := s.set b (rotateLeft (s[b] ^^^ s[c]) 12)
  let s := s.set a (s[a] + s[b])
  let s := s.set d (rotateLeft (s[d] ^^^ s[a]) 8)
  let s := s.set c (s[c] + s[d])
  s.set b (rotateLeft (s[b] ^^^ s[c]) 7)

/-- The words of each quarter round: the columns, then the diagonals. -/
def quarters : List (Fin 16 × Fin 16 × Fin 16 × Fin 16) :=
  [(0, 4, 8, 12), (1, 5, 9, 13), (2, 6, 10, 14), (3, 7, 11, 15),
    (0, 5, 10, 15), (1, 6, 11, 12), (2, 7, 8, 13), (3, 4, 9, 14)]

/-- A round of columns and one of diagonals. -/
def doubleRound (s : Block) : Block :=
  quarters.foldl (fun s (a, b, c, d) => quarterRound s a b c d) s

/-- The cipher's name of itself, `expand 32-byte k`. -/
def sigma : List UInt32 := [0x61707865, 0x3320646E, 0x79622D32, 0x6B206574]

/-- The block that a block of the stream is stirred from: the name, the key, the
number of the block, and a zero nonce. -/
def initialBlock (key : List UInt32) (counter : UInt64) : Block :=
  let words := (sigma ++ key ++ [counter.toUInt32, (counter >>> 32).toUInt32, 0, 0]).toArray
  Vector.ofFn fun (i : Fin 16) => words.getD i 0

/-- A block of the stream: six double rounds, added to where they began. -/
def streamBlock (key : List UInt32) (counter : UInt64) : Block :=
  let start := initialBlock key counter
  let stirred := (List.range 6).foldl (fun s _ => doubleRound s) start
  Vector.ofFn fun (i : Fin 16) => stirred[i] + start[i]

/-- The word of two words of a block, the lower half first. -/
def wordOf (block : Block) (pair : Fin 8) : UInt64 :=
  let low := block[2 * pair.val]
  let high := block[2 * pair.val + 1]
  high.toUInt64 <<< 32 ||| low.toUInt64

/-- The stream under a key, eight words a block. -/
def ofKey (key : List UInt32) : Entropy :=
  fun n => wordOf (streamBlock key (n / 8).toUInt64) (Fin.ofNat 8 n)

/-- The stream of a seed. -/
def ofSeed (seed : UInt64) : Entropy :=
  ofKey (keyOfSeed seed)

end Entropy

end FlightPlan
