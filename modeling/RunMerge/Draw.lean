/-!
# Drawing random words

Random data are made from 32-bit words that are drawn one after the other from a source: from a stream,
which reads an infinite sequence of words, or from a generator, which is made from a 64-bit seed and
computes its words block by block.

An index below `n` is drawn by scaling a random number to `n`. The number stands for the first binary
digits of a fraction, and the index is the whole part of that fraction times `n`. Only when further
digits could carry into the whole part is a second number drawn and the carry decided by it. The
numbers are words if `n` is a word itself, and pairs of words for all greater ranges.
-/

namespace RunMerge.Draw

/-- States that words can be drawn from. -/
class WordSource (σ : Type) where
  next : σ → UInt32 × σ

structure Stream where
  word : Nat → UInt32
  /-- How many words have been read. -/
  used : Nat

namespace Stream

instance : WordSource Stream where
  next s := (s.word s.used, ⟨s.word, s.used + 1⟩)

def start (word : Nat → UInt32) : Stream := ⟨word, 0⟩

/-- Finitely many words, repeated for ever; zeros if there is none. -/
def cyclic (words : Array UInt32) : Stream := start fun i => words.getD (i % words.size) 0

@[simp] theorem next_eq (s : Stream) :
    WordSource.next s = (s.word s.used, ⟨s.word, s.used + 1⟩) := rfl

end Stream

/-- The number of distinct words. -/
def wordCount : Nat := UInt32.size

/-- The number of distinct pairs of words. -/
def pairCount : Nat := UInt64.size

/-- The whole part of a number below `count` scaled to `n`. -/
def scaledWhole (count n u : Nat) : Nat := u * n / count

/-- What scaling leaves after the whole part, in units of `1 / count`. -/
def scaledRest (count n u : Nat) : Nat := u * n % count

/-- The rest is so large that further digits could carry. -/
def mayCarry (count n u : Nat) : Bool := count - n < scaledRest count n u

def carries (count n u w : Nat) : Bool := count ≤ scaledRest count n u + scaledWhole count n w

section Index

variable {σ : Type}

/-- Draws an index below `n` from one number or two, which are drawn below `count`. -/
def scaled (draw : σ → Nat × σ) (count n : Nat) (s : σ) : Nat × σ :=
  let (u, s) := draw s
  if mayCarry count n u then
    let (w, s) := draw s
    (if carries count n u w then scaledWhole count n u + 1 else scaledWhole count n u, s)
  else
    (scaledWhole count n u, s)

variable [WordSource σ]

def drawWord (s : σ) : Nat × σ :=
  let (word, s) := WordSource.next s
  (word.toNat, s)

/-- Draws two words as one number, the lower digits first. -/
def drawPair (s : σ) : Nat × σ :=
  let (low, s) := WordSource.next s
  let (high, s) := WordSource.next s
  (high.toNat * wordCount + low.toNat, s)

def index (n : Nat) (s : σ) : Nat × σ :=
  if n < wordCount then scaled drawWord wordCount n s else scaled drawPair pairCount n s

end Index

namespace ChaCha

abbrev Block := Vector UInt32 16

abbrev Key := Vector UInt32 8

def rotateLeft (x count : UInt32) : UInt32 := (x <<< count) ||| (x >>> (32 - count))

def quarterRound (a b c d : Fin 16) (s : Block) : Block :=
  let s := s.set a (s[a] + s[b])
  let s := s.set d (rotateLeft (s[d] ^^^ s[a]) 16)
  let s := s.set c (s[c] + s[d])
  let s := s.set b (rotateLeft (s[b] ^^^ s[c]) 12)
  let s := s.set a (s[a] + s[b])
  let s := s.set d (rotateLeft (s[d] ^^^ s[a]) 8)
  let s := s.set c (s[c] + s[d])
  s.set b (rotateLeft (s[b] ^^^ s[c]) 7)

/-- A round over the columns of the block and one over its diagonals. -/
def doubleRound (s : Block) : Block :=
  let s := quarterRound 0 4 8 12 s
  let s := quarterRound 1 5 9 13 s
  let s := quarterRound 2 6 10 14 s
  let s := quarterRound 3 7 11 15 s
  let s := quarterRound 0 5 10 15 s
  let s := quarterRound 1 6 11 12 s
  let s := quarterRound 2 7 8 13 s
  quarterRound 3 4 9 14 s

def rounds : Nat → Block → Block
  | 0, s => s
  | count + 1, s => rounds count (doubleRound s)

/-- The block before the first round. The constants are the bytes of `expand 32-byte k`. -/
def initial (key : Key) (counter : UInt64) : Block :=
  #v[0x61707865, 0x3320646e, 0x79622d32, 0x6b206574,
    key[0], key[1], key[2], key[3], key[4], key[5], key[6], key[7],
    counter.toUInt32, (counter >>> 32).toUInt32, 0, 0]

/-- The block of a key and a counter: six double rounds, and the initial block added to them. -/
def block (key : Key) (counter : UInt64) : Block :=
  Vector.zipWith (· + ·) (rounds 6 (initial key counter)) (initial key counter)

/-- Word `i` of a key's sequence: a word of block `i / 16`, the counter of which wraps. -/
def sequence (key : Key) (i : Nat) : UInt32 :=
  (block key (UInt64.ofNat (i / 16))).get ⟨i % 16, Nat.mod_lt i (by decide)⟩

/-- The counter is that of the block to be computed next; of the block at hand, so many words have been
handed out. -/
structure Generator where
  key : Key
  counter : UInt64
  current : Block
  taken : Nat

namespace Generator

/-- A generator that has no block at hand yet. -/
def ofKey (key : Key) : Generator := ⟨key, 0, Vector.replicate 16 0, 16⟩

instance : WordSource Generator where
  next g :=
    if h : g.taken < 16 then
      (g.current[g.taken], { g with taken := g.taken + 1 })
    else
      let fresh := block g.key g.counter
      (fresh[0], ⟨g.key, g.counter + 1, fresh, 1⟩)

end Generator

end ChaCha

namespace Seed

def base : UInt64 := 0x5EED2026

def mix (z : UInt64) : UInt64 :=
  let z := (z ^^^ (z >>> 30)) * 0xBF58476D1CE4E5B9
  let z := (z ^^^ (z >>> 27)) * 0x94D049BB133111EB
  z ^^^ (z >>> 31)

/-- The seed that a salt selects. Salts that differ little give unrelated seeds. -/
def ofSalt (salt : UInt64) : UInt64 := mix (base ^^^ salt)

def advance (state : UInt64) : UInt64 := state * 6364136223846793005 + 11634580027462260723

def rotateRight (x count : UInt32) : UInt32 := (x >>> count) ||| (x <<< ((32 - count) % 32))

/-- The word that a state of the sequence gives: middle bits, rotated by the highest ones. -/
def output (state : UInt64) : UInt32 :=
  rotateRight (((state >>> 18) ^^^ state) >>> 27).toUInt32 (state >>> 59).toUInt32

def stateAfter (seed : UInt64) : Nat → UInt64
  | 0 => seed
  | steps + 1 => advance (stateAfter seed steps)

/-- The key of a seed: the words of the first eight states after it. -/
def expand (seed : UInt64) : ChaCha.Key :=
  Vector.ofFn fun i => output (stateAfter seed (i + 1))

def generator (seed : UInt64) : ChaCha.Generator := .ofKey (expand seed)

def ofSalt? : Option UInt64 → UInt64
  | some salt => ofSalt salt
  | none => base

end Seed

end RunMerge.Draw
