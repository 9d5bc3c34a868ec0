import RunMerge.Proofs.BottomUpSort
import RunMerge.Proofs.FixedMidSort
import RunMerge.Proofs.Endings

/-!
# Both strategies sort

Unless it is refused, a sort leaves the elements of the array in non-decreasing order, whatever the
scratch holds. The two strategies agree where both take the length. Lengths are those that an array
in memory can have: slots are four bytes wide, so no length comes near the largest word.
-/

namespace RunMerge

variable {α : Type} [LE α] [DecidableLE α]

structure Sorted (before after : Array α) : Prop where
  ascending : ∀ i j, (hij : i < j) → (hj : j < after.size) → after[i] ≤ after[j]
  perm : after.toList.Perm before.toList
  eq_reference : after.toList = before.toList.mergeSort

/-- A call that ends with a report, and unless that tells a failure, has sorted the data. -/
def Sorts (data : Array α) (outcome : Checked (Report α)) : Prop :=
  ∃ report, outcome = .ok report ∧ (report.failure = none → Sorted data report.data)

omit [DecidableLE α] in
theorem pairwise_toList_iff {data : Array α} : data.toList.Pairwise (· ≤ ·) ↔
    ∀ i j, (hij : i < j) → (hj : j < data.size) → data[i] ≤ data[j] := by
  rw [List.pairwise_iff_getElem]
  constructor
  · intro hordered i j hij hj
    exact hordered i j (Nat.lt_trans hij hj) hj hij
  · intro hpairs i j _ hj hij
    exact hpairs i j hij hj

/-- Everything that `Sorted` says follows from the equation with the reference sort. -/
theorem sorted_of_toList_eq [Std.IsLinearPreorder α] {before after : Array α}
    (h : after.toList = before.toList.mergeSort) : Sorted before after where
  ascending := by
    have hsorted := pairwise_mergeSort before.toList
    rw [← h] at hsorted
    exact pairwise_toList_iff.mp hsorted
  perm := by
    rw [h]
    exact List.mergeSort_perm _ _
  eq_reference := h

/-- A strategy is idle only on arrays that are in order already. -/
theorem mergeSort_of_idle [Std.IsLinearPreorder α] {strategy : Strategy} {data : Array α}
    (h : strategy.idleOn data = true) : data.toList.mergeSort = data.toList := by
  apply mergeSort_of_sorted
  cases strategy with
  | bottomUp =>
    simp only [Strategy.idleOn, Bool.or_eq_true, decide_eq_true_eq] at h
    rcases h with hsmall | hsorted
    · exact pairwise_of_size_lt_two hsmall
    · exact isSorted_iff.mp hsorted
  | fixedMid =>
    simp only [Strategy.idleOn, decide_eq_true_eq] at h
    exact pairwise_of_size_lt_two h

theorem Sorts.sorted {data : Array α} {outcome : Checked (Report α)} (h : Sorts data outcome)
    {report : Report α} (hr : outcome = .ok report) (hok : report.failure = none) :
    Sorted data report.data := by
  obtain ⟨r, hout, hsorted⟩ := h
  rw [hr] at hout
  cases hout
  exact hsorted hok

/-- Two sorts of the same array that both succeed agree. -/
theorem data_eq_of_sorts {data : Array α} {outcome outcome' : Checked (Report α)}
    (h : Sorts data outcome) (h' : Sorts data outcome') {report report' : Report α}
    (hr : outcome = .ok report) (hr' : outcome' = .ok report') (hok : report.failure = none)
    (hok' : report'.failure = none) : report.data = report'.data := by
  apply Array.toList_inj.mp
  rw [(h.sorted hr hok).eq_reference, (h'.sorted hr' hok').eq_reference]

variable [Inhabited α]

/-- A strategy whose runs sort makes a sort that sorts, with any allocator and scratch. -/
theorem sorts_of_run [Std.IsLinearPreorder α] (grant : Allocator) {strategy : Strategy}
    {data : Array α} (s : Scratch α) (hlen : strategy.supports data.size = true)
    (hrun : strategy.idleOn data = false → ∀ buffer : Array α, buffer.size = data.size →
      ∃ done, strategy.run data buffer = .ok done ∧ done.data.toList = data.toList.mergeSort) :
    Sorts data (sortWith grant strategy data s) := by
  cases hidle : strategy.idleOn data with
  | true =>
    have hreport := @sortWith_idle _ _ _ _ grant strategy data s hlen hidle
    exact ⟨_, hreport, fun _ => sorted_of_toList_eq (mergeSort_of_idle hidle).symm⟩
  | false =>
    rcases s.refused_or_granted grant data.size with ⟨hsize, cause, hgrant⟩ | hgrant
    · refine ⟨_, sortWith_refused hlen hidle hsize hgrant, ?_⟩
      intro hnone
      cases hnone
    · obtain ⟨done, hdone, hdata⟩ := hrun hidle (s.borrowed data.size) (s.size_borrowed data.size)
      have hreport : sortWith grant strategy data s =
          .ok ⟨done.data, (s.grownTo data.size).restore done.buffer,
            .sorting strategy data.size :: done.log, none⟩ := by
        rw [sortWith_granted hlen hidle hgrant, hdone]
        rfl
      exact ⟨_, hreport, fun _ => sorted_of_toList_eq hdata⟩

theorem sortWith_bottomUp_sorts [Std.IsLinearPreorder α] (grant : Allocator) {data : Array α}
    (s : Scratch α) (hsize : data.size < Word.limit) :
    Sorts data (sortWith grant .bottomUp data s) := by
  refine sorts_of_run grant s (Strategy.supports_bottomUp _) fun _ buffer hbuffer => ?_
  exact ⟨_, BottomUp.run_eq hsize hbuffer, BottomUp.sourceAfter_clog data⟩

theorem sortWith_fixedMid_sorts [Std.IsLinearOrder α] (grant : Allocator) {data : Array α}
    (s : Scratch α) (hlen : Strategy.supports .fixedMid data.size = true)
    (hsize : data.size < Word.largest) : Sorts data (sortWith grant .fixedMid data s) := by
  refine sorts_of_run grant s hlen fun hidle buffer hbuffer => ?_
  have h2 := (idleOn_eq_false_iff.mp hidle).1
  have hlimit := Word.lt_limit_of_lt_largest hsize
  obtain ⟨k, hmid⟩ := (FixedMid.supports_iff_midpoint hlimit h2).mp hlen
  exact ⟨_, FixedMid.run_eq h2 hsize hmid hbuffer, FixedMid.dataAfter_last hmid⟩

/-- Whatever the scratch holds, a bottom-up sort that is not refused sorts, and so do the calls that
bring a scratch of their own. -/
theorem bottomUp_sorts (grant : Allocator) (data : Array Int32) (scratch : Scratch Int32)
    (hsize : data.size < Word.limit) :
    Sorts data (sortWith grant .bottomUp data scratch) ∧
      Sorts data (sort grant .bottomUp data) ∧ Sorts data (mergeSort grant data) :=
  ⟨sortWith_bottomUp_sorts grant scratch hsize, sortWith_bottomUp_sorts grant .empty hsize,
    sortWith_bottomUp_sorts grant .empty hsize⟩

/-- Seven elements and a longer scratch with old contents. -/
theorem bottomUp_sorts_stale_scratch :
    (#[5, 4, -3, 4, 2, 7, -2147483648] : Array Int32).size < Word.limit ∧
      ∃ report, sortWith .machine .bottomUp (#[5, 4, -3, 4, 2, 7, -2147483648] : Array Int32)
          ⟨#[9, 9, 9, 9, 9, 9, 9, 9, 9]⟩ = .ok report ∧
        report.failure = none ∧ report.data = #[-2147483648, -3, 2, 4, 4, 5, 7] := by
  obtain ⟨⟨report, hr, hsorted⟩, -⟩ := bottomUp_sorts .machine #[5, 4, -3, 4, 2, 7, -2147483648]
    ⟨#[9, 9, 9, 9, 9, 9, 9, 9, 9]⟩ (by decide)
  have hok : report.failure = none := Checked.eq_of_map Report.failure hr (by cbv)
  refine ⟨by decide, report, hr, hok, Array.toList_inj.mp ?_⟩
  exact (hsorted hok).eq_reference.trans (mergeSort_eq_of_sorted (by decide) (by decide))

/-- The fixed-mid strategy takes the lengths `2 ^ k` and `2 ^ k - 1`. On them it sorts unless it is
refused, and then gives what the bottom-up sort gives. -/
theorem fixedMid_sorts (grant : Allocator) (data : Array Int32) (scratch : Scratch Int32)
    (hsize : data.size < Word.largest) :
    (Strategy.supports .fixedMid data.size = true ↔
        ∃ k, data.size = 2 ^ k ∨ data.size + 1 = 2 ^ k) ∧
      (Strategy.supports .fixedMid data.size = true →
        Sorts data (sortWith grant .fixedMid data scratch) ∧
          ∀ grant' report report', sortWith grant .fixedMid data scratch = .ok report →
            mergeSort grant' data = .ok report' → report.failure = none →
              report'.failure = none → report.data = report'.data) := by
  have hlimit := Word.lt_limit_of_lt_largest hsize
  refine ⟨supports_fixedMid_iff hlimit, fun hlen => ?_⟩
  have hfixed := sortWith_fixedMid_sorts grant scratch hlen hsize
  refine ⟨hfixed, fun grant' report report' hr hr' hok hok' => ?_⟩
  exact data_eq_of_sorts hfixed (sortWith_bottomUp_sorts grant' .empty hlimit) hr hr' hok hok'

/-- Seven elements, one less than a power of two. -/
theorem fixedMid_sorts_seven :
    Strategy.supports .fixedMid (#[9, -3, 7, 0, 7, 2, -8] : Array Int32).size = true ∧
      (#[9, -3, 7, 0, 7, 2, -8] : Array Int32).size < Word.largest ∧
        ∃ report, sortWith .machine .fixedMid (#[9, -3, 7, 0, 7, 2, -8] : Array Int32) ⟨#[1, 2, 3]⟩ =
            .ok report ∧
          report.failure = none ∧ report.data = #[-8, -3, 0, 2, 7, 7, 9] := by
  obtain ⟨report, hr, hsorted⟩ := ((fixedMid_sorts .machine #[9, -3, 7, 0, 7, 2, -8] ⟨#[1, 2, 3]⟩
    (by decide)).2 (by decide)).1
  have hok : report.failure = none := Checked.eq_of_map Report.failure hr (by cbv)
  refine ⟨by decide, by decide, report, hr, hok, Array.toList_inj.mp ?_⟩
  exact (hsorted hok).eq_reference.trans (mergeSort_eq_of_sorted (by decide) (by decide))

end RunMerge
