import Mathlib.Data.List.TFAE
import RunMerge.Proofs.PassLog
import RunMerge.Proofs.ScratchHistory
import RunMerge.Proofs.SortedOutput

/-!
# An array in order is left alone, and no other one

The test of neighbours spares a sort all its work. It holds of an array just when all pairs are in order,
and that can be told from everything that a bottom-up sort leaves behind: the data are what they were, no
pass has been logged, and an empty scratch is still empty. A sort of any other array changes the data, logs
a pass and makes the scratch grow.
-/

namespace RunMerge

variable {α : Type} [LE α] [DecidableLE α]

section Order

variable [Std.IsLinearPreorder α]

theorem idleOn_bottomUp_iff {data : Array α} :
    Strategy.idleOn .bottomUp data = true ↔ data.toList.Pairwise (· ≤ ·) := by
  rw [← not_iff_not, Bool.not_eq_true, idleOn_eq_false_iff_unordered]
  simp only [reduceCtorEq, false_or]
  exact and_iff_right_of_imp two_le_size_of_unordered

/-- Sorting moves something unless all is in its place. -/
theorem Sorted.eq_iff {before after : Array α} (h : Sorted before after) :
    after = before ↔ before.toList.Pairwise (· ≤ ·) := by
  constructor
  · intro hsame
    have hsorted := pairwise_mergeSort before.toList
    rwa [← h.eq_reference, hsame] at hsorted
  · intro hordered
    exact Array.toList_inj.mp (h.eq_reference.trans (mergeSort_of_sorted hordered))

end Order

/-- Elements that are not in order take at least the pass of width one. -/
theorem no_mergePass_iff {data : Array α} :
    (∀ width, .mergePass width ∉ Strategy.fullLog .bottomUp data) ↔
      data.toList.Pairwise (· ≤ ·) := by
  by_cases hordered : data.toList.Pairwise (· ≤ ·)
  · refine iff_of_true (fun width hmem => ?_) hordered
    rw [Strategy.fullLog, if_neg (by simp [hordered]), List.mem_singleton] at hmem
    cases hmem
  · have h2 := two_le_size_of_unordered hordered
    refine iff_of_false (fun hnone => hnone 1 ?_) hordered
    have hfirst : 0 ∈ List.range (Nat.clog 2 data.size) :=
      List.mem_range.mpr (Nat.clog_pos Nat.one_lt_two h2)
    rw [Strategy.fullLog, if_pos ⟨h2, .inr hordered⟩]
    exact List.mem_cons_of_mem _ (List.mem_map.mpr ⟨0, hfirst, rfl⟩)

variable [Inhabited α] {grant : Allocator} {strategy : Strategy} {data : Array α} {s : Scratch α}
variable {r : Report α}

/-- A sort that succeeds makes the scratch as long as the array, if it had work to do. -/
theorem Ending.size_scratch (h : Ending grant strategy data s r) (hok : r.failure = none) :
    r.scratch.size = if strategy.idleOn data then s.size else max s.size data.size := by
  cases h with
  | unsupported hlen => cases hok
  | idle hlen hidle => rw [if_pos hidle]
  | refused hlen hidle hshort hgrant => cases hok
  | @sorted done hlen hidle hgrant hbuffer hrun =>
    rw [hidle, ← hbuffer]
    exact s.size_receive done.buffer

variable [Std.IsLinearPreorder α]

/-- An empty scratch stays empty just when no array is borrowed from it. -/
theorem Ending.scratch_empty_iff (h : Ending grant .bottomUp data s r) (hs : s.size = 0)
    (hok : r.failure = none) : r.scratch.size = 0 ↔ data.toList.Pairwise (· ≤ ·) := by
  rw [h.size_scratch hok, ← idleOn_bottomUp_iff]
  cases hidle : Strategy.idleOn .bottomUp data with
  | true => simp [hs]
  | false =>
    have h2 := (idleOn_eq_false_iff.mp hidle).1
    refine iff_of_false ?_ Bool.false_ne_true
    rw [if_neg Bool.false_ne_true]
    omega

/-- The test of neighbours tells, for a bottom-up sort that gets its memory, whether all pairs are in order,
whether the data stay as they are, whether there are no passes and whether nothing is borrowed. Fewer than
two elements are always in order. -/
theorem isSorted_tfae (grant grant' : Allocator) (data : Array α) (s : Scratch α) (hs : s.size = 0)
    (hsize : data.size < Word.largest) :
    ∃ r r', mergeSort grant data = .ok r ∧ sortWith grant' .bottomUp data s = .ok r' ∧
      (grant data.size = .ok () → r.failure = none) ∧
      (grant' data.size = .ok () → r'.failure = none) ∧
      (r.failure = none → r'.failure = none →
        [isSorted data = true,
          ∀ i j, (hij : i < j) → (hj : j < data.size) → data[i] ≤ data[j],
          r.data = data,
          (∀ width, .mergePass width ∉ r.log) ∨ data.size < 2,
          r'.scratch.size = 0 ∨ data.size < 2].TFAE) := by
  obtain ⟨r, hr, hend⟩ := sortWith_ending grant .bottomUp (.empty : Scratch α) hsize
  obtain ⟨r', hr', hend'⟩ := sortWith_ending grant' .bottomUp s hsize
  refine ⟨r, r', hr, hr', fun hgrant => hend.success_of_granted rfl fun _ => hgrant,
    fun hgrant => hend'.success_of_granted rfl fun _ => hgrant, fun hok hok' => ?_⟩
  have hsorts := sortWith_bottomUp_sorts grant (.empty : Scratch α) (Word.lt_limit_of_lt_largest hsize)
  refine List.tfae_of_forall (data.toList.Pairwise (· ≤ ·)) _ ?_
  simp only [List.forall_mem_cons, List.not_mem_nil, false_imp_iff, implies_true, and_true]
  refine ⟨isSorted_iff, pairwise_toList_iff.symm, (hsorts.sorted hr hok).eq_iff, ?_, ?_⟩
  · rw [hend.log_eq hsize hok, no_mergePass_iff, or_iff_left_of_imp pairwise_of_size_lt_two]
  · rw [hend'.scratch_empty_iff hs hok', or_iff_left_of_imp pairwise_of_size_lt_two]

/-- Equal neighbours are in order; of three elements the last two are not. -/
theorem isSorted_tfae_four_three :
    ((Scratch.empty : Scratch Int32).size = 0 ∧ (#[1, 2, 2, 9] : Array Int32).size < Word.largest) ∧
      (∃ r r', mergeSort .machine (#[1, 2, 2, 9] : Array Int32) = .ok r ∧
        sortWith .machine .bottomUp (#[1, 2, 2, 9] : Array Int32) .empty = .ok r' ∧
          r.data = #[1, 2, 2, 9] ∧ (∀ width, .mergePass width ∉ r.log) ∧ r'.scratch.size = 0) ∧
      ∃ r r', mergeSort .machine (#[1, 3, 2] : Array Int32) = .ok r ∧
        sortWith .machine .bottomUp (#[1, 3, 2] : Array Int32) .empty = .ok r' ∧
          r.data ≠ #[1, 3, 2] ∧ r'.scratch.size ≠ 0 := by
  obtain ⟨r, r', hr, hr', hgranted, hgranted', htfae⟩ := isSorted_tfae .machine .machine
    (#[1, 2, 2, 9] : Array Int32) .empty rfl (by decide)
  obtain ⟨q, q', hq, hq', hgranted₂, hgranted₂', htfae₂⟩ := isSorted_tfae .machine .machine
    (#[1, 3, 2] : Array Int32) .empty rfl (by decide)
  have hordered := htfae (hgranted rfl) (hgranted' rfl)
  have hunordered := htfae₂ (hgranted₂ rfl) (hgranted₂' rfl)
  have hyes : isSorted (#[1, 2, 2, 9] : Array Int32) = true := by decide
  have hno : ¬isSorted (#[1, 3, 2] : Array Int32) = true := by decide
  have hdata : r.data = #[1, 2, 2, 9] := (hordered.out 0 2).mp hyes
  have hlog : (∀ width, .mergePass width ∉ r.log) ∨ 4 < 2 := (hordered.out 0 3).mp hyes
  have hscratch : r'.scratch.size = 0 ∨ 4 < 2 := (hordered.out 0 4).mp hyes
  have hmoved : q.data ≠ #[1, 3, 2] := mt (hunordered.out 2 0).mp hno
  have hgrown : ¬(q'.scratch.size = 0 ∨ 3 < 2) := mt (hunordered.out 4 0).mp hno
  exact ⟨⟨rfl, by decide⟩, ⟨r, r', hr, hr', hdata, hlog.resolve_right (by decide),
    hscratch.resolve_right (by decide)⟩, q, q', hq, hq', hmoved, fun hempty => hgrown (.inl hempty)⟩

end RunMerge
