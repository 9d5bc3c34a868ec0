import RunMerge.Checked
import RunMerge.Text

/-!
# Scratch memory

Sorting borrows a second array. A `Scratch` keeps that array between sorts: it only grows, new
slots hold the default element (zero, for numbers), and what a sort leaves in it stays there.
Growing asks an allocator, which may refuse; a refusal leaves the scratch as it was.
-/

namespace RunMerge

inductive AllocError where
  | capacityOverflow
  | refused
  deriving DecidableEq, Repr

namespace AllocError

def message : AllocError → String
  | capacityOverflow =>
    "memory allocation failed because the computed capacity exceeded the collection's maximum"
  | refused => "memory allocation failed because the memory allocator returned an error"

end AllocError

/-- An allocator answers a request for room for so many slots in all. -/
abbrev Allocator := Nat → Except AllocError Unit

namespace Allocator

def slotBytes : Nat := 4

/-- The largest array in bytes: aligned to a slot, it has to stay below half the address space. -/
def largestArray : Nat := UInt64.size / 2 - slotBytes

def addressable : Nat := 1 <<< 47

/-- The allocator of the program. It refuses what no machine can give and grants the rest. -/
def machine : Allocator := fun len =>
  if largestArray < len * slotBytes then .error .capacityOverflow
  else if addressable < len * slotBytes then .error .refused
  else .ok ()

end Allocator

structure Scratch (α : Type) where
  slots : Array α
  deriving DecidableEq, Repr

namespace Scratch

variable {α : Type}

def empty : Scratch α := ⟨#[]⟩

/-- The number of slots. Growth is exact, so this is also the room that the scratch has. -/
def size (s : Scratch α) : Nat := s.slots.size

def first (s : Scratch α) (len : Nat) : Checked (Array α) := do
  Slots.inRange 0 len s.size
  pure (s.slots.extract 0 len)

/-- Puts a borrowed part back in front of the slots that were not borrowed. -/
def restore (s : Scratch α) (part : Array α) : Scratch α :=
  ⟨part ++ s.slots.extract part.size s.size⟩

variable [Inhabited α]

/-- Grows the scratch to `len` slots unless it has that many. -/
def ensure (grant : Allocator) (s : Scratch α) (len : Nat) :
    Checked (Except AllocError (Scratch α)) :=
  if s.size < len then do
    let missing ← Word.sub len s.size
    match grant (s.size + missing) with
    | .error cause => pure (.error cause)
    | .ok () => pure (.ok ⟨s.slots ++ Array.replicate missing default⟩)
  else
    pure (.ok s)

/-- Makes sure of `len` slots, hands the first `len` to `use`, and keeps what `use` returns in
their place. The part is returned too, as it was before `use`. -/
def lend (grant : Allocator) (s : Scratch α) (len : Nat) (use : Array α → Array α) :
    Checked (Except AllocError (Array α × Scratch α)) := do
  match ← s.ensure grant len with
  | .error cause => pure (.error cause)
  | .ok grown =>
    let part ← grown.first len
    pure (.ok (part, grown.restore (use part)))

def describe (s : Scratch Int32) : String :=
  "SortContext \x7b scratch: [" ++
    ", ".intercalate (s.slots.toList.map fun x => String.ofList (Text.ofInt x.toInt)) ++ "] \x7d"

theorem ensure_of_le (grant : Allocator) {s : Scratch α} {len : Nat} (h : len ≤ s.size) :
    s.ensure grant len = .ok (.ok s) := if_neg (by omega)

end Scratch

end RunMerge
