import RunMerge.Checked
import RunMerge.Draw

/-!
# Datasets

Arrays to sort, made from random words. What a dataset holds depends on its distribution, its size
and the words that are drawn for it, and on nothing else. There are uniform datasets, of any 32-bit
integers; nearly sorted ones, the numbers from zero on with one exchange for every hundred elements; and
ones of few distinct values, all of them multiples of seventeen.
-/

namespace RunMerge

open Draw (WordSource)

inductive Distribution where
  | uniform
  | nearlySorted
  | fewDistinct
  deriving DecidableEq, Repr

namespace Distribution

def all : List Distribution := [uniform, nearlySorted, fewDistinct]

def label : Distribution → String
  | uniform => "random_uniform"
  | nearlySorted => "nearly_sorted_1pct_swaps"
  | fewDistinct => "few_distinct"

def title : Distribution → String
  | uniform => "RandomUniform"
  | nearlySorted => "NearlySorted1pctSwaps"
  | fewDistinct => "FewDistinct"

end Distribution

namespace Dataset

variable {σ : Type} [WordSource σ]

def drawAny (s : σ) : Int32 × σ :=
  let (word, s) := WordSource.next s
  (word.toInt32, s)

/-- One of the multiples `0, 17, …, 255`. -/
def drawFew (s : σ) : Int32 × σ :=
  let (i, s) := Draw.index 16 s
  (Int32.ofNat i * 17, s)

def fill (draw : σ → Int32 × σ) : Nat → Array Int32 → σ → Array Int32 × σ
  | 0, xs, s => (xs, s)
  | count + 1, xs, s =>
    let (x, s) := draw s
    fill draw count (xs.push x) s

def ascending (size : Nat) : Array Int32 := (Array.range size).map Int32.ofNat

@[simp] theorem size_ascending (size : Nat) : (ascending size).size = size := by simp [ascending]

/-- How many exchanges a nearly sorted dataset gets. -/
def exchanges (size : Nat) : Nat := if size = 0 then 0 else max 1 (size / 100)

theorem exchanges_of_pos {size : Nat} (h : 0 < size) : exchanges size = max 1 (size / 100) :=
  if_neg (Nat.pos_iff_ne_zero.mp h)

/-- Exchanges two randomly drawn slots so many times. -/
def shuffle : Nat → Array Int32 → σ → Checked (Array Int32 × σ)
  | 0, xs, s => pure (xs, s)
  | count + 1, xs, s => do
    let (a, s) := Draw.index xs.size s
    let (b, s) := Draw.index xs.size s
    let xs ← Slots.exchange xs a b
    shuffle count xs s

theorem shuffle_succ (count : Nat) (xs : Array Int32) (s : σ) :
    shuffle (count + 1) xs s =
      Slots.exchange xs (Draw.index xs.size s).1 (Draw.index xs.size (Draw.index xs.size s).2).1 >>=
        fun ys => shuffle count ys (Draw.index xs.size (Draw.index xs.size s).2).2 := rfl

def generate : Distribution → Nat → σ → Checked (Array Int32 × σ)
  | .uniform, size, s => pure (fill drawAny size #[] s)
  | .nearlySorted, size, s => shuffle (exchanges size) (ascending size) s
  | .fewDistinct, size, s => pure (fill drawFew size #[] s)

/-- Makes several datasets, one after the other, from one source. -/
def generateAll : List (Distribution × Nat) → σ → Checked (List (Array Int32) × σ)
  | [], s => pure ([], s)
  | (distribution, size) :: parts, s => do
    let (set, s) ← generate distribution size s
    let (sets, s) ← generateAll parts s
    pure (set :: sets, s)

end Dataset

end RunMerge
