import RunMerge.Event

/-!
# Merging in passes

Two runs of one array are merged into another array by three cursors: one in each run and one at
the next slot to write. Of two equal heads the left one is taken first, which is what makes a
sort built from these merges stable. Nothing here asks the runs to be sorted or the bounds to be
in order; the bounds only have to keep every access inside its array.

A sort owns two arrays of the same size, the data and a borrowed buffer, and makes passes of width
one, two, four and so on over them, as long as the width is below the number of elements. A bottom-up
pass of width `w` cuts the array into windows of two neighbouring runs of `w` elements, the last
window being as short as the array makes it, and merges each window into the other array. Source and
target change places from pass to pass, so the sorted elements end up in either of the two arrays and
are copied back if it is the borrowed one.

For fixed-mid passes the array is cut once, at the ceiling of half its length. A pass of width `w` walks
both halves in lockstep: it merges the first runs of `w` elements of both halves, then the second
ones, and so on, and writes one merged run after the other. Only for lengths `2 ^ k` and `2 ^ k - 1` do
the halves split evenly into runs at every width; for all others some pass leaves slots unwritten or
leaves the array, and is a fault.
-/

namespace RunMerge

variable {α : Type}

structure Cursor (α : Type) where
  left : Nat
  right : Nat
  out : Nat
  dst : Array α
  deriving Repr

namespace Cursor

/-- Moves the elements of the left run up to position `stop`, none if its head is there. -/
def drainLeft (src : Array α) (stop : Nat) (c : Cursor α) : Checked (Cursor α) := do
  let dst ← Slots.transfer src (stop - c.left) c.left c.dst c.out
  pure ⟨c.left + (stop - c.left), c.right, c.out + (stop - c.left), dst⟩

def drainRight (src : Array α) (stop : Nat) (c : Cursor α) : Checked (Cursor α) := do
  let dst ← Slots.transfer src (stop - c.right) c.right c.dst c.out
  pure ⟨c.left, c.right + (stop - c.right), c.out + (stop - c.right), dst⟩

variable [LE α] [DecidableLE α]

/-- Takes the lesser head, and of equal heads the left one, until one run has reached its end. -/
def mergeHeads (src : Array α) (leftEnd rightEnd : Nat) (c : Cursor α) : Checked (Cursor α) :=
  if c.left < leftEnd ∧ c.right < rightEnd then do
    let x ← Slots.fetch src c.left
    let y ← Slots.fetch src c.right
    if x ≤ y then do
      let dst ← Slots.store c.dst c.out x
      mergeHeads src leftEnd rightEnd ⟨c.left + 1, c.right, c.out + 1, dst⟩
    else do
      let dst ← Slots.store c.dst c.out y
      mergeHeads src leftEnd rightEnd ⟨c.left, c.right + 1, c.out + 1, dst⟩
  else
    pure c
termination_by (leftEnd - c.left) + (rightEnd - c.right)
decreasing_by all_goals omega

end Cursor

/-- Merges the runs `left, …, mid - 1` and `mid, …, right - 1` of `src` into `dst` from slot
`left` on. When one run is used up the rest of the other is copied in one piece. -/
def mergeRanges [LE α] [DecidableLE α] (src dst : Array α) (left mid right : Nat) :
    Checked (Array α) := do
  let c ← Cursor.mergeHeads src mid right ⟨left, mid, left, dst⟩
  if c.left < mid then
    Slots.copyRange src c.dst c.left mid c.out
  else if c.right < right then
    Slots.copyRange src c.dst c.right right c.out
  else
    pure c.dst

/-- The widths from `width` on. A width that no longer grows ends the schedule. -/
def widthsFrom (len width : Nat) : List Nat :=
  if width < len ∧ width < Word.satMul width 2 then
    width :: widthsFrom len (Word.satMul width 2)
  else
    []
termination_by len - width
decreasing_by omega

def widths (len : Nat) : List Nat := widthsFrom len 1

structure Workspace (α : Type) where
  data : Array α
  buffer : Array α
  log : List Event
  deriving DecidableEq, Repr

namespace BottomUp

structure Window where
  left : Nat
  mid : Nat
  right : Nat
  deriving DecidableEq, Repr

def Window.startingAt (len width left : Nat) : Window :=
  let mid := min (Word.satAdd left width) len
  ⟨left, mid, min (Word.satAdd mid width) len⟩

/-- The windows from `left` on, each of which starts where the one before it ends. An empty window
ends the list; none arises from a positive width. -/
def windowsFrom (len width left : Nat) : List Window :=
  if left < len ∧ left < (Window.startingAt len width left).right then
    Window.startingAt len width left ::
      windowsFrom len width (Window.startingAt len width left).right
  else
    []
termination_by len - left
decreasing_by omega

def windows (len width : Nat) : List Window := windowsFrom len width 0

variable [LE α] [DecidableLE α]

def boundaryInOrder (src : Array α) (mid : Nat) : Checked Bool := do
  let before ← Word.sub mid 1
  let x ← Slots.fetch src before
  let y ← Slots.fetch src mid
  pure (decide (x ≤ y))

def mergeWindow (src dst : Array α) (w : Window) : Checked (Array α) :=
  mergeRanges src dst w.left w.mid w.right

/-- Copies a window whose second run is empty or begins no lower than the first one ends, and
merges every other window. For sorted runs the copy is what the merge would give. -/
def settleWindow (src dst : Array α) (w : Window) : Checked (Array α) :=
  if w.right ≤ w.mid then
    Slots.copyRange src dst w.left w.right w.left
  else do
    if ← boundaryInOrder src w.mid then
      Slots.copyRange src dst w.left w.right w.left
    else
      mergeWindow src dst w

def pass (src dst : Array α) (width : Nat) : Checked (Array α) :=
  (windows src.size width).foldlM (settleWindow src) dst

/-- The pass without the short cut: every window is merged. -/
def plainPass (src dst : Array α) (width : Nat) : Checked (Array α) :=
  (windows src.size width).foldlM (mergeWindow src) dst

/-- The two arrays between passes. The runs are in `source`; `turned` tells that this is the
borrowed array. -/
structure Exchange (α : Type) where
  source : Array α
  target : Array α
  turned : Bool
  log : List Event
  deriving Repr

def Exchange.step (x : Exchange α) (width : Nat) : Checked (Exchange α) := do
  let written ← pass x.source x.target width
  pure ⟨written, x.source, !x.turned, x.log ++ [.mergePass width]⟩

/-- The end of a sort: runs that are in the borrowed array are copied back. -/
def Exchange.settle (x : Exchange α) : Checked (Workspace α) :=
  if x.turned then do
    let data ← Slots.replace x.target x.source
    pure ⟨data, x.source, x.log⟩
  else
    pure ⟨x.source, x.target, x.log⟩

def run (data buffer : Array α) : Checked (Workspace α) := do
  let x ← (widths data.size).foldlM Exchange.step ⟨data, buffer, false, []⟩
  x.settle

end BottomUp

namespace FixedMid

variable [LE α] [DecidableLE α]

def midpoint (len : Nat) : Nat := (len + 1) / 2

/-- Merges the next runs of both halves: the left run ends at `step`, the right one as far behind
the cut or at the end of the array. -/
def mergeStep (src : Array α) (mid step : Nat) (c : Cursor α) : Checked (Cursor α) := do
  Word.fits (mid + step)
  let rightEnd := min (mid + step) src.size
  let c ← c.mergeHeads src step rightEnd
  let c ← c.drainLeft src step
  c.drainRight src rightEnd

/-- Merges run after run, as long as the left run ends inside the left half. The width is
positive. -/
def mergeSteps (src : Array α) (mid width step : Nat) (c : Cursor α) : Checked (Cursor α) :=
  if 0 < width ∧ step ≤ mid then do
    let c ← mergeStep src mid step c
    Word.fits (step + width)
    mergeSteps src mid width (step + width) c
  else
    pure c
termination_by mid + 1 - step
decreasing_by omega

/-- One pass from `src` to `dst`. It is a fault if it has not written a slot for every element. -/
def pass (src dst : Array α) (mid width : Nat) : Checked (Array α) := do
  let c ← mergeSteps src mid width width ⟨0, mid, 0, dst⟩
  if c.out = src.size then
    pure c.dst
  else
    .error (.slotsUnwritten c.out src.size)

/-- A pass into the borrowed array, which is then copied back as a whole. -/
def step (mid : Nat) (w : Workspace α) (width : Nat) : Checked (Workspace α) := do
  let buffer ← pass w.data w.buffer mid width
  let data ← Slots.replace w.data buffer
  pure ⟨data, buffer, w.log ++ [.fixedMidPass width mid]⟩

def run (data buffer : Array α) : Checked (Workspace α) :=
  (widths data.size).foldlM (step (midpoint data.size)) ⟨data, buffer, []⟩

end FixedMid

end RunMerge
