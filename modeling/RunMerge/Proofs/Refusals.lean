import RunMerge.Proofs.Endings
import RunMerge.Proofs.SortedLists

/-!
# Refusals are exact, and they change nothing

Each reason for a refusal is told in one situation and in no other: a length that the strategy does
not take, memory that is needed and not granted, a prefix that is longer than the array. The checks
come in that order, and all of them come before anything is written. So a call that fails has left
the data and the scratch alone, and its log tells no more than that the sort began.
-/

namespace RunMerge

section Definitions

variable {α : Type} [LE α] [DecidableLE α]

structure Denied (grant : Allocator) (strategy : Strategy) (data : Array α) (s : Scratch α)
    (cause : AllocError) : Prop where
  supported : strategy.supports data.size = true
  two_le : 2 ≤ data.size
  unordered : strategy = .fixedMid ∨ ¬data.toList.Pairwise (· ≤ ·)
  short : s.size < data.size
  cause_eq : grant data.size = .error cause

structure FailsExactly (grant : Allocator) (strategy : Strategy) (data : Array α) (s : Scratch α)
    (r : Report α) : Prop where
  unsupportedLength_iff : ∀ strategy' len,
    r.failure = some (.unsupportedLength strategy' len) ↔
      strategy.supports data.size = false ∧ strategy' = strategy ∧ len = data.size
  allocationFailed_iff : ∀ len cause,
    r.failure = some (.allocationFailed len cause) ↔
      Denied grant strategy data s cause ∧ len = data.size
  success_iff : r.failure = none ↔
    strategy.supports data.size = true ∧ ∀ cause, ¬Denied grant strategy data s cause

structure PrefixFailsExactly [Inhabited α] (grant : Allocator) (data : Array α) (n : Nat)
    (r : Report α) : Prop where
  prefixOutOfBounds_iff : ∀ n' len,
    r.failure = some (.prefixOutOfBounds n' len) ↔ data.size < n ∧ n' = n ∧ len = data.size
  failure_eq : n ≤ data.size →
    ∃ r', mergeSort grant (data.extract 0 n) = .ok r' ∧ r.failure = r'.failure

/-- A call that fails has changed neither the data nor the scratch. It has logged nothing, or just
that the sort began if it was memory that was missing. -/
structure FailsClean (strategy : Strategy) (data : Array α) (s : Scratch α) (r : Report α) :
    Prop where
  data_eq : r.failure ≠ none → r.data = data
  scratch_eq : r.failure ≠ none → r.scratch = s
  log_of_unsupportedLength : ∀ strategy' len,
    r.failure = some (.unsupportedLength strategy' len) → r.log = []
  log_of_prefixOutOfBounds : ∀ n len, r.failure = some (.prefixOutOfBounds n len) → r.log = []
  log_of_allocationFailed : ∀ len cause, r.failure = some (.allocationFailed len cause) →
    r.log = [.sorting strategy len] ∧ ∀ e ∈ r.log, e.level = .debug

end Definitions

variable {α : Type}

/-- If the sort of a prefix fails, putting the rest behind it gives back the whole array. -/
theorem FailsClean.append_rest {strategy : Strategy} {data : Array α} {s : Scratch α} {r : Report α}
    {n : Nat} (h : FailsClean strategy (data.extract 0 n) s r) :
    FailsClean strategy data s { r with data := r.data ++ data.extract n data.size } where
  data_eq hfailure := by
    rw [h.data_eq hfailure, Slots.extract_append_rest]
  scratch_eq := h.scratch_eq
  log_of_unsupportedLength := h.log_of_unsupportedLength
  log_of_prefixOutOfBounds := h.log_of_prefixOutOfBounds
  log_of_allocationFailed := h.log_of_allocationFailed

variable [LE α] [DecidableLE α] [Inhabited α]
variable {grant : Allocator} {strategy : Strategy} {data : Array α} {s : Scratch α} {r : Report α}

/-- The order of the checks: nothing was written before the last of them. -/
theorem Ending.failsClean (h : Ending grant strategy data s r) : FailsClean strategy data s r := by
  cases h with
  | unsupported hlen => constructor <;> simp
  | idle hlen hidle => constructor <;> simp
  | refused hlen hidle hshort hgrant =>
    constructor
    case log_of_allocationFailed =>
      intro len cause hfailure
      cases hfailure
      exact ⟨rfl, by simp [Event.level]⟩
    all_goals simp
  | sorted hlen hidle hgrant hbuffer hrun => constructor <;> simp

/-- A sort never speaks of a prefix. -/
theorem Ending.failure_ne_prefixOutOfBounds (h : Ending grant strategy data s r) (n len : Nat) :
    r.failure ≠ some (.prefixOutOfBounds n len) := by
  cases h <;> simp

variable [Std.IsLinearPreorder α]

omit [Inhabited α] in
theorem idleOn_eq_false_iff_unordered : strategy.idleOn data = false ↔
    2 ≤ data.size ∧ (strategy = .fixedMid ∨ ¬data.toList.Pairwise (· ≤ ·)) := by
  rw [idleOn_eq_false_iff, ← isSorted_iff, Bool.not_eq_true]
  cases strategy <;> simp

omit [Inhabited α] in
/-- Memory is denied to a sort that has work to do, needs to grow its scratch and may not. -/
theorem denied_iff {cause : AllocError} : Denied grant strategy data s cause ↔
    strategy.supports data.size = true ∧ strategy.idleOn data = false ∧
      s.size < data.size ∧ grant data.size = .error cause := by
  rw [idleOn_eq_false_iff_unordered]
  constructor
  · intro h
    exact ⟨h.supported, ⟨h.two_le, h.unordered⟩, h.short, h.cause_eq⟩
  · rintro ⟨hlen, ⟨h2, hunordered⟩, hshort, hgrant⟩
    exact ⟨hlen, h2, hunordered, hshort, hgrant⟩

theorem Ending.failsExactly (h : Ending grant strategy data s r) :
    FailsExactly grant strategy data s r := by
  cases h with
  | unsupported hlen =>
    constructor
    case unsupportedLength_iff => simp [hlen, eq_comm]
    all_goals simp [denied_iff, hlen]
  | idle hlen hidle => constructor <;> simp [denied_iff, hlen, hidle]
  | refused hlen hidle hshort hgrant =>
    constructor
    case allocationFailed_iff =>
      intro len cause
      simp [denied_iff, hlen, hidle, hshort, hgrant, and_comm, @eq_comm _ data.size]
    all_goals simp [denied_iff, hlen, hidle, hshort, hgrant]
  | sorted hlen hidle hgrant hbuffer hrun =>
    have hfed : ∀ cause, ¬Denied grant strategy data s cause := by
      intro cause hdenied
      have hcause := hdenied.cause_eq
      rw [hgrant hdenied.short] at hcause
      cases hcause
    constructor <;> simp [hlen, hfed]

/-- A sort and a prefix sort both end with a report, which tells a failure just when one of the
reasons holds, and a failure has left everything as it was. A prefix sort brings a scratch of its
own, which is empty. -/
theorem refusals_exact_and_atomic (grant : Allocator) (strategy : Strategy) (data : Array Int32)
    (s : Scratch Int32) (n : Nat) (hsize : data.size < Word.largest) :
    (∃ r, sortWith grant strategy data s = .ok r ∧
        FailsExactly grant strategy data s r ∧ FailsClean strategy data s r) ∧
      ∃ r, mergeSortPrefix grant data n = .ok r ∧
        PrefixFailsExactly grant data n r ∧ FailsClean .bottomUp data .empty r := by
  constructor
  · obtain ⟨r, hr, hend⟩ := sortWith_ending grant strategy s hsize
    exact ⟨r, hr, hend.failsExactly, hend.failsClean⟩
  · rcases Nat.lt_or_ge data.size n with hn | hn
    · refine ⟨_, mergeSortPrefix_beyond grant hn, ⟨?_, ?_⟩, ?_⟩
      · simp [hn, eq_comm]
      · intro hle
        omega
      · constructor <;> simp
    · have hpart : (data.extract 0 n).size < Word.largest := by
        rw [Array.size_extract]
        omega
      obtain ⟨r, hr, hend⟩ := sortWith_ending grant .bottomUp (.empty : Scratch Int32) hpart
      have hsort : mergeSort grant (data.extract 0 n) = .ok r := hr
      have hprefix := mergeSortPrefix_within grant hn
      rw [hsort, Checked.ok_bind] at hprefix
      refine ⟨_, hprefix, ⟨?_, fun _ => ⟨r, hsort, rfl⟩⟩, hend.failsClean.append_rest⟩
      intro n' len
      constructor
      · intro hfailure
        exact absurd hfailure (hend.failure_ne_prefixOutOfBounds n' len)
      · rintro ⟨hlt, -, -⟩
        omega

/-- Three elements out of order, a scratch of one slot and no memory to be had, and a prefix of
four. -/
theorem refusals_exact_and_atomic_three :
    (#[3, 1, 2] : Array Int32).size < Word.largest ∧
      (∃ r, sortWith (fun _ => .error .refused) .bottomUp (#[3, 1, 2] : Array Int32) ⟨#[9]⟩ = .ok r ∧
        r.failure = some (.allocationFailed 3 .refused) ∧ r.data = #[3, 1, 2] ∧
          r.scratch = ⟨#[9]⟩ ∧ r.log = [.sorting .bottomUp 3]) ∧
      ∃ r, mergeSortPrefix (fun _ => .error .refused) (#[3, 1, 2] : Array Int32) 4 = .ok r ∧
        r.failure = some (.prefixOutOfBounds 4 3) ∧ r.data = #[3, 1, 2] ∧ r.log = [] := by
  obtain ⟨⟨r, hr, hexact, hclean⟩, r', hr', hexact', hclean'⟩ := refusals_exact_and_atomic
    (fun _ => .error .refused) .bottomUp (#[3, 1, 2] : Array Int32) ⟨#[9]⟩ 4 (by decide)
  have hfailure : r.failure = some (.allocationFailed 3 .refused) :=
    (hexact.allocationFailed_iff 3 .refused).mpr
      ⟨⟨rfl, by decide, .inr (by decide), by decide, rfl⟩, rfl⟩
  have hfailure' : r'.failure = some (.prefixOutOfBounds 4 3) :=
    (hexact'.prefixOutOfBounds_iff 4 3).mpr ⟨by decide, rfl, rfl⟩
  refine ⟨by decide, ⟨r, hr, hfailure, ?_, ?_, ?_⟩, r', hr', hfailure', ?_, ?_⟩
  · exact hclean.data_eq (by simp [hfailure])
  · exact hclean.scratch_eq (by simp [hfailure])
  · exact (hclean.log_of_allocationFailed 3 .refused hfailure).1
  · exact hclean'.data_eq (by simp [hfailure'])
  · exact hclean'.log_of_prefixOutOfBounds 4 3 hfailure'

end RunMerge
