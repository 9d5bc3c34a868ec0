import RunMerge.Passes
import RunMerge.Scratch

/-!
# Sorting

A sort takes an array, a strategy and a scratch, and reports what has become of the array and the
scratch, the events of the call, and the reason if it was refused. A strategy that does not take
the length is refused before anything is logged. Arrays that need no work, those of fewer than
two elements and, for the bottom-up strategy, sorted ones, do not touch the scratch. An array counts
as sorted when each element is at most the one after it.

Several scratches live side by side in a pool, numbered in the order in which they were made. A command
makes one, copies one, or sorts with one; it affects no other.
-/

namespace RunMerge

inductive SortError where
  | allocationFailed (len : Nat) (cause : AllocError)
  | unsupportedLength (strategy : Strategy) (len : Nat)
  | prefixOutOfBounds (n len : Nat)
  deriving DecidableEq, Repr

namespace SortError

def message : SortError → String
  | allocationFailed len _ =>
    "failed to allocate a scratch buffer of " ++ Text.decimal len ++ " elements"
  | unsupportedLength strategy len =>
    strategy.name ++ " cannot sort " ++ Text.decimal len ++ " elements"
  | prefixOutOfBounds n len =>
    "prefix length " ++ Text.decimal n ++ " exceeds slice length " ++ Text.decimal len

/-- The messages of the reasons behind this one, the nearest first. -/
def causes : SortError → List String
  | allocationFailed _ cause => [cause.message]
  | unsupportedLength _ _ => []
  | prefixOutOfBounds _ _ => []

end SortError

variable {α : Type}

structure Report (α : Type) where
  data : Array α
  scratch : Scratch α
  log : List Event
  failure : Option SortError
  deriving DecidableEq, Repr

section Sorting

variable [LE α] [DecidableLE α]

/-- Every element is at most its successor. -/
def nonDecreasing : List α → Bool
  | x :: y :: rest => decide (x ≤ y) && nonDecreasing (y :: rest)
  | _ => true

def isSorted (xs : Array α) : Bool := nonDecreasing xs.toList

@[simp] theorem nonDecreasing_nil : nonDecreasing ([] : List α) = true := rfl

@[simp] theorem nonDecreasing_singleton (x : α) : nonDecreasing [x] = true := rfl

@[simp] theorem nonDecreasing_cons_cons (x y : α) (rest : List α) :
    nonDecreasing (x :: y :: rest) = (decide (x ≤ y) && nonDecreasing (y :: rest)) := rfl

def Strategy.run : Strategy → Array α → Array α → Checked (Workspace α)
  | .bottomUp => BottomUp.run
  | .fixedMid => FixedMid.run

/-- The strategy has nothing to do for this array. -/
def Strategy.idleOn : Strategy → Array α → Bool
  | .bottomUp, data => data.size < 2 || isSorted data
  | .fixedMid, data => data.size < 2

variable [Inhabited α]

def sortWith (grant : Allocator) (strategy : Strategy) (data : Array α) (scratch : Scratch α) :
    Checked (Report α) :=
  let len := data.size
  let start := Event.sorting strategy len
  if !strategy.supports len then
    pure ⟨data, scratch, [], some (.unsupportedLength strategy len)⟩
  else if strategy.idleOn data then
    pure ⟨data, scratch, [start], none⟩
  else do
    match ← scratch.ensure grant len with
    | .error cause => pure ⟨data, scratch, [start], some (.allocationFailed len cause)⟩
    | .ok grown =>
      let buffer ← grown.first len
      let done ← strategy.run data buffer
      pure ⟨done.data, grown.restore done.buffer, start :: done.log, none⟩

/-- Sorts with a scratch of its own. -/
def sort (grant : Allocator) (strategy : Strategy) (data : Array α) : Checked (Report α) :=
  sortWith grant strategy data .empty

/-- Sorts bottom-up, the strategy that takes every length. -/
def mergeSort (grant : Allocator) (data : Array α) : Checked (Report α) :=
  sort grant .bottomUp data

/-- Sorts the first `n` elements and leaves the others where they are. -/
def mergeSortPrefix (grant : Allocator) (data : Array α) (n : Nat) : Checked (Report α) :=
  if n ≤ data.size then do
    let report ← mergeSort grant (data.extract 0 n)
    pure { report with data := report.data ++ data.extract n data.size }
  else
    pure ⟨data, .empty, [], some (.prefixOutOfBounds n data.size)⟩

end Sorting

/-- An element that is compared by its key alone and carries a tag along. -/
structure Tagged (τ : Type) where
  key : Int32
  tag : τ
  deriving DecidableEq, Repr, Inhabited

namespace Tagged

variable {τ : Type}

instance : LE (Tagged τ) := ⟨fun x y => x.key ≤ y.key⟩

instance : DecidableLE (Tagged τ) := fun x y => inferInstanceAs (Decidable (x.key ≤ y.key))

@[simp] theorem le_iff (x y : Tagged τ) : x ≤ y ↔ x.key ≤ y.key := Iff.rfl

end Tagged

inductive Command (α : Type) where
  | create
  | createWith (len : Nat)
  | clone (source : Nat)
  | sort (index : Nat) (strategy : Strategy) (data : Array α)
  deriving Repr

inductive Answer (α : Type) where
  | made (index : Nat) (scratch : Scratch α)
  | refused (reason : SortError)
  | sorted (index : Nat) (report : Report α)
  deriving Repr

structure Pool (α : Type) where
  scratches : Array (Scratch α)
  deriving Repr

namespace Pool

def empty : Pool α := ⟨#[]⟩

def add (p : Pool α) (scratch : Scratch α) : Pool α × Answer α :=
  (⟨p.scratches.push scratch⟩, .made p.scratches.size scratch)

variable [LE α] [DecidableLE α] [Inhabited α]

/-- Carries out a command. A number that no scratch has is a fault. -/
def step (grant : Allocator) (p : Pool α) : Command α → Checked (Pool α × Answer α)
  | .create => pure (p.add .empty)
  | .createWith len => do
    match ← (Scratch.empty : Scratch α).ensure grant len with
    | .error cause => pure (p, .refused (.allocationFailed len cause))
    | .ok scratch => pure (p.add scratch)
  | .clone source => do
    let scratch ← Slots.fetch p.scratches source
    pure (p.add scratch)
  | .sort index strategy data => do
    let scratch ← Slots.fetch p.scratches index
    let report ← sortWith grant strategy data scratch
    let scratches ← Slots.store p.scratches index report.scratch
    pure (⟨scratches⟩, .sorted index report)

def run (grant : Allocator) (p : Pool α) : List (Command α) → Checked (Pool α × List (Answer α))
  | [] => pure (p, [])
  | command :: rest => do
    let (p, answer) ← p.step grant command
    let (p, answers) ← p.run grant rest
    pure (p, answer :: answers)

end Pool

end RunMerge
