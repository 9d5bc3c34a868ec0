/-!
# Checked arithmetic and checked arrays

Sorting touches its arrays and its sizes only through checked operations. A fault is the reason why
such an operation stopped: a slot outside the array, a copy between unequal arrays, a size that no
64-bit word holds, or a pass that left slots unwritten. A fault is never a result that a caller asked
for; a length that cannot be sorted or memory that is refused is a `SortError`.

Lengths, positions and widths are natural numbers below `2 ^ 64`. Where arithmetic could leave that
range, one of three rules applies: it saturates, it wraps, or it is a fault. The rules are kept apart by
name, so that each use says which one it means.
-/

namespace RunMerge

inductive Fault where
  | slotOutOfRange (index size : Nat)
  | rangeOutOfRange (first past size : Nat)
  | unequalSizes (target source : Nat)
  | wordOverflow
  | slotsUnwritten (written size : Nat)
  deriving DecidableEq, Repr

abbrev Checked (α : Type) := Except Fault α

namespace Checked

variable {α β : Type}

@[simp] theorem pure_eq_ok (x : α) : (pure x : Checked α) = .ok x := rfl

@[simp] theorem ok_bind (x : α) (f : α → Checked β) : ((.ok x : Checked α) >>= f) = f x := rfl

@[simp] theorem error_bind (e : Fault) (f : α → Checked β) :
    ((.error e : Checked α) >>= f) = .error e := rfl

/-- A sequence ends with a value exactly when both of its parts do. -/
theorem bind_eq_ok_iff {x : Checked α} {f : α → Checked β} {y : β} :
    (x >>= f) = .ok y ↔ ∃ a, x = .ok a ∧ f a = .ok y := by
  cases x <;> simp

/-- What a part of the value is can be computed without the rest of it. -/
theorem eq_of_map (f : α → β) {x : Checked α} {a : α} {b : β} (hx : x = .ok a)
    (h : x.map f = .ok b) : f a = b := by
  subst hx
  exact Except.ok.inj h

/-- A fault is what there is instead of a value. -/
theorem exists_error_iff {x : Checked α} : (∃ e, x = .error e) ↔ ¬∃ y, x = .ok y := by
  cases x <;> simp

end Checked

namespace Word

def limit : Nat := UInt64.size

def largest : Nat := limit - 1

/-- A sum that stays at the largest size instead of leaving the range. -/
def satAdd (a b : Nat) : Nat := min (a + b) largest

def satMul (a b : Nat) : Nat := min (a * b) largest

/-- The next size, which after the largest one is zero. -/
def wrapSucc (n : Nat) : Nat := (n + 1) % limit

/-- A sum or product that must be a size is one only below the limit. -/
def fits (n : Nat) : Checked Unit :=
  if n < limit then .ok () else .error .wordOverflow

def sub (a b : Nat) : Checked Nat :=
  if b ≤ a then .ok (a - b) else .error .wordOverflow

/-- Exactly one bit is set: clearing the lowest set bit leaves nothing. -/
def isPowerOfTwo (n : Nat) : Bool := n != 0 && n &&& (n - 1) == 0

theorem lt_limit_of_lt_largest {n : Nat} (h : n < largest) : n < limit :=
  Nat.lt_of_lt_of_le h (Nat.sub_le limit 1)

theorem satMul_of_lt {a b : Nat} (h : a * b < limit) : satMul a b = a * b := by
  simp only [satMul, largest]; omega

@[simp] theorem fits_of_lt {n : Nat} (h : n < limit) : fits n = .ok () := if_pos h

theorem fits_eq_ok_iff {n : Nat} {u : Unit} : fits n = .ok u ↔ n < limit := by
  unfold fits; split <;> simp_all

@[simp] theorem sub_of_le {a b : Nat} (h : b ≤ a) : sub a b = .ok (a - b) := if_pos h

end Word

namespace Slots

variable {α : Type}

def fetch (xs : Array α) (i : Nat) : Checked α :=
  if h : i < xs.size then .ok xs[i] else .error (.slotOutOfRange i xs.size)

def store (xs : Array α) (i : Nat) (x : α) : Checked (Array α) :=
  if h : i < xs.size then .ok (xs.set i x h) else .error (.slotOutOfRange i xs.size)

/-- Copies `count` slots of `src` from position `i` on to `dst` from position `k` on, one slot at
a time and in ascending order. -/
def transfer (src : Array α) : (count i : Nat) → (dst : Array α) → (k : Nat) → Checked (Array α)
  | 0, _, dst, _ => .ok dst
  | count + 1, i, dst, k => do
    let x ← fetch src i
    let dst ← store dst k x
    transfer src count (i + 1) dst (k + 1)

def inRange (first past size : Nat) : Checked Unit :=
  if first ≤ past ∧ past ≤ size then .ok () else .error (.rangeOutOfRange first past size)

/-- Copies the slots `first, …, past - 1` of `src` to `dst` from position `k` on. Both ranges are
checked before a slot is written. -/
def copyRange (src dst : Array α) (first past k : Nat) : Checked (Array α) := do
  Word.fits (k + (past - first))
  inRange k (k + (past - first)) dst.size
  inRange first past src.size
  transfer src (past - first) first dst k

/-- Overwrites a whole array by another of the same size. -/
def replace (dst src : Array α) : Checked (Array α) :=
  if dst.size = src.size then .ok src else .error (.unequalSizes dst.size src.size)

/-- Exchanges two slots, which may be the same one. -/
def exchange (xs : Array α) (a b : Nat) : Checked (Array α) := do
  let x ← fetch xs a
  let y ← fetch xs b
  let xs ← store xs a y
  store xs b x

@[simp] theorem fetch_of_lt {xs : Array α} {i : Nat} (h : i < xs.size) :
    fetch xs i = .ok xs[i] := dif_pos h

theorem fetch_of_le {xs : Array α} {i : Nat} (h : xs.size ≤ i) :
    fetch xs i = .error (.slotOutOfRange i xs.size) := dif_neg (by omega)

@[simp] theorem store_of_lt {xs : Array α} {i : Nat} {x : α} (h : i < xs.size) :
    store xs i x = .ok (xs.set i x h) := dif_pos h

theorem store_of_le {xs : Array α} {i : Nat} {x : α} (h : xs.size ≤ i) :
    store xs i x = .error (.slotOutOfRange i xs.size) := dif_neg (by omega)

@[simp] theorem exchange_of_lt {xs : Array α} {a b : Nat} (ha : a < xs.size) (hb : b < xs.size) :
    exchange xs a b = .ok (xs.swap a b ha hb) := by
  simp [exchange, ha, hb, Array.swap]

@[simp] theorem replace_of_size_eq {dst src : Array α} (h : dst.size = src.size) :
    replace dst src = .ok src := if_pos h

end Slots

end RunMerge
