import QuantizedGemm.Random.WordSource

/-!
# The ChaCha generator

Words from the ChaCha stream cipher with eight rounds. A block of sixteen words is a function of a
key of eight words and a block number; the stream is the words of block 0, of block 1, and so on.

## Seeds

A seed of 64 bits is stretched into a key by a linear congruential generator, whose states are
rotated by an amount of their own before they are cut to words. Equal seeds give equal streams, and
nothing else of the generator is relied on.
-/

namespace QuantizedGemm.ChaCha

/-- Sixteen words. -/
abbrev Block := Vector UInt32 16

def rotateLeft (x k : UInt32) : UInt32 := (x <<< k) ||| (x >>> (32 - k))

def rotateRight (x k : UInt32) : UInt32 := (x >>> k) ||| (x <<< ((32 - k) % 32))

/-- Adds the word at `b` to the one at `a`, and mixes the sum into the one at `d`. -/
def addMix (s : Block) (a b d : Fin 16) (k : UInt32) : Block :=
  let s := s.set a.val (s.get a + s.get b) a.isLt
  s.set d.val (rotateLeft (s.get d ^^^ s.get a) k) d.isLt

/-- Mixes four words. -/
def quarterRound (s : Block) (a b c d : Fin 16) : Block :=
  let s := addMix s a b d 16
  let s := addMix s c d b 12
  let s := addMix s a b d 8
  addMix s c d b 7

/-- Mixes the columns and then the diagonals. -/
def doubleRound (s : Block) : Block :=
  let s := quarterRound s 0 4 8 12
  let s := quarterRound s 1 5 9 13
  let s := quarterRound s 2 6 10 14
  let s := quarterRound s 3 7 11 15
  let s := quarterRound s 0 5 10 15
  let s := quarterRound s 1 6 11 12
  let s := quarterRound s 2 7 8 13
  quarterRound s 3 4 9 14

/-- The four words that every block starts from. -/
def constants : Vector UInt32 4 := #v[0x61707865, 0x3320646e, 0x79622d32, 0x6b206574]

/-- A block number, low word first, and a nonce of zero. -/
def position (number : UInt64) : Vector UInt32 4 :=
  #v[number.toUInt32, (number >>> 32).toUInt32, 0, 0]

/-- The block before mixing. -/
def initialBlock (key : Vector UInt32 8) (number : UInt64) : Block :=
  constants ++ key ++ position number

def doubleRounds : Nat := 4

def block (key : Vector UInt32 8) (number : UInt64) : Block :=
  let start := initialBlock key number
  Vector.zipWith (· + ·) (Nat.repeat doubleRound doubleRounds start) start

/-- Advances the state that stretches a seed. -/
def stretchState (s : UInt64) : UInt64 := s * 6364136223846793005 + 11634580027462260723

def stretchWord (s : UInt64) : UInt32 :=
  rotateRight ((((s >>> 18) ^^^ s) >>> 27).toUInt32) (s >>> 59).toUInt32

def keyOfSeed (seed : UInt64) : Vector UInt32 8 :=
  Vector.ofFn fun i : Fin 8 ↦ stretchWord (Nat.repeat stretchState (i + 1) seed)

/-- A position in the stream of a key: the current block, and how many of its words are used. -/
structure Stream where
  key : Vector UInt32 8
  /-- The number of the block that follows the current one. -/
  following : UInt64
  current : Block
  used : Nat

namespace Stream

def ofSeed (seed : UInt64) : Stream :=
  let key := keyOfSeed seed
  ⟨key, 1, block key 0, 0⟩

def next (s : Stream) : UInt32 × Stream :=
  if h : s.used < 16 then (s.current.get ⟨s.used, h⟩, { s with used := s.used + 1 })
  else
    let fresh := block s.key s.following
    (fresh.get 0, { s with following := s.following + 1, current := fresh, used := 1 })

instance : WordSource Stream := ⟨next⟩

end Stream

end QuantizedGemm.ChaCha
