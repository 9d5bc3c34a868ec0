import Mathlib.Order.Bounds.Defs
import RunMerge.Proofs.Refusals
import RunMerge.Proofs.ScratchHistory
import RunMerge.Proofs.SortedOutput

/-!
# What the arrays hold after some of the passes

Stopped between two passes, the fixed-mid sort has its elements grouped by residue classes of their
first positions, and each class in order. The bottom-up sort has them in sorted blocks, by turns in
the one and in the other array; so when it is done, the borrowed one still shows the blocks of the
last pass that went there, which is the last one with an odd number.
-/

namespace RunMerge

section Definitions

variable {α : Type}

structure Scratch.Replaced (before : Scratch α) (part : Array α) (after : Scratch α) : Prop where
  size_eq : after.size = max before.size part.size
  front : after.slots.extract 0 part.size = part
  behind : ∀ i, part.size ≤ i → after.slots[i]? = before.slots[i]?

/-- What is left of a bottom-up sort in the array that it borrowed: the data in sorted blocks, as
they were after the last pass with an odd number `q`. -/
structure LastOddBlocks [LE α] [DecidableLE α] (data : Array α) (q : Nat) (part : Array α) :
    Prop where
  greatest : IsGreatest {e | e % 2 = 1 ∧ e ≤ Nat.clog 2 data.size} q
  blocks : BlocksSorted data (2 ^ q) part
  sorted_iff : part.toList = data.toList.mergeSort ↔
    Nat.clog 2 data.size % 2 = 1 ∨ part.toList.Pairwise (· ≤ ·)

end Definitions

namespace FixedMid

variable {α : Type} [LE α] [DecidableLE α]

theorem take_widths {n k q : Nat} (h2 : 2 ≤ n) (hn : n < Word.limit) (hmid : midpoint n = 2 ^ k)
    (hq : q ≤ k + 1) : (widths n).take q = (List.range q).map (2 ^ ·) := by
  rw [widths_eq hn, clog_of_midpoint h2 hmid, ← List.map_take, List.take_range, Nat.min_eq_left hq]

/-- For `2 ^ k` elements, or one less, the first `q` passes of a sort succeed, whatever the buffer
holds. Then block `t` of `2 ^ q` holds in order the elements whose first position leaves `t` modulo
`2 ^ (k - q)`. With `q = k` these are all passes, and the one class is the sorted array. -/
theorem classes_between_passes [Std.IsLinearOrder α] {data buffer : Array α} {k q : Nat}
    (h2 : 2 ≤ data.size) (hlen : data.size = 2 ^ k ∨ data.size + 1 = 2 ^ k)
    (hsize : data.size < Word.largest) (hbuffer : buffer.size = data.size) (hq : q ≤ k) :
    (widths data.size).take q = (List.range q).map (2 ^ ·) ∧
      ∃ w, ((widths data.size).take q).foldlM (step (midpoint data.size)) ⟨data, buffer, []⟩ =
          .ok w ∧
        (0 < q → w.buffer = w.data) ∧ ClassesSorted data (2 ^ (k - q)) (2 ^ q) w.data ∧
        (q = k → run data buffer = .ok w ∧ Sorted data w.data) := by
  obtain ⟨k, rfl⟩ : ∃ j, k = j + 1 := by
    cases k with
    | zero => omega
    | succ k => exact ⟨k, rfl⟩
  have hmid : midpoint data.size = 2 ^ k := midpoint_eq_pow_iff.mpr hlen
  have htake := take_widths h2 (Word.lt_limit_of_lt_largest hsize) hmid hq
  refine ⟨htake, workspaceAfter data buffer (2 ^ k) q, ?_, ?_, classesSorted_dataAfter hmid hq, ?_⟩
  · rw [htake, hmid]
    exact foldlM_step hsize hmid hbuffer hq
  · intro hpos
    cases q with
    | zero => omega
    | succ q => rfl
  · rintro rfl
    exact ⟨run_eq h2 hsize hmid hbuffer, sorted_of_toList_eq (dataAfter_last hmid)⟩

/-- Seven elements after two of three passes: the even positions in order, then the odd ones. -/
theorem classes_between_passes_seven :
    (#[9, -3, 7, 0, 7, 2, -8] : Array Int32).size + 1 = 2 ^ 3 ∧
      ∃ w, [1, 2].foldlM (step 4) ⟨(#[9, -3, 7, 0, 7, 2, -8] : Array Int32), .replicate 7 0, []⟩ =
          .ok w ∧ block w.data 4 0 = [-8, 7, 7, 9] ∧ block w.data 4 1 = [-3, 0, 2] := by
  obtain ⟨htake, w, hw, -, hclasses, -⟩ := @classes_between_passes _ _ _ _
    (#[9, -3, 7, 0, 7, 2, -8] : Array Int32) (.replicate 7 0) 3 2 (by decide) (by decide)
    (by decide) (by decide) (by decide)
  rw [htake] at hw
  have heven : ([9, 7, 7, -8] : List Int32).mergeSort = [-8, 7, 7, 9] :=
    mergeSort_eq_of_sorted (by decide) (by decide)
  have hodd : ([-3, 0, 2] : List Int32).mergeSort = [-3, 0, 2] := mergeSort_of_sorted (by decide)
  exact ⟨by decide, w, hw, (hclasses.block_eq 0 (by decide)).trans heven,
    (hclasses.block_eq 1 (by decide)).trans hodd⟩

end FixedMid

variable {α : Type}

/-- What was borrowed and put back stands in front of what was not borrowed. -/
theorem Scratch.replaced_receive [Inhabited α] (s : Scratch α) (part : Array α) :
    s.Replaced part (s.receive part) where
  size_eq := s.size_receive part
  front := (s.grownTo part.size).extract_restore part
  behind i hi := by
    have hgrown := s.size_grownTo part.size
    simp only [size] at hgrown
    rw [receive, restore, Array.getElem?_append_right hi, Array.getElem?_extract,
      Nat.add_sub_cancel' hi, size, hgrown, Nat.min_self]
    by_cases hs : i < s.slots.size
    · rw [if_pos (by omega), grownTo, Array.getElem?_append_left hs]
    · rw [if_neg (by omega), Array.getElem?_eq_none (by omega)]

variable [LE α] [DecidableLE α]

/-- A sort that had work to do has put back the array that it borrowed. -/
theorem Ending.replaced [Inhabited α] {grant : Allocator} {strategy : Strategy} {data : Array α}
    {s : Scratch α} {r : Report α} (h : Ending grant strategy data s r)
    (hidle : strategy.idleOn data = false) (hok : r.failure = none) :
    ∃ done, strategy.run data data = .ok done ∧ s.Replaced done.buffer r.scratch := by
  cases h with
  | unsupported hlen => cases hok
  | idle hlen hidle' =>
    rw [hidle] at hidle'
    cases hidle'
  | refused hlen hidle' hshort hgrant => cases hok
  | @sorted done hlen hidle' hgrant hbuffer hrun =>
    refine ⟨done, hrun data rfl, ?_⟩
    rw [← hbuffer]
    exact s.replaced_receive done.buffer

/-- Sorting blocks moves no element out of its block. -/
theorem BlocksSorted.perm {start xs : Array α} {w : Nat} (h : BlocksSorted start w xs)
    (hw : 0 < w) : xs.toList.Perm start.toList := by
  rw [← flatMap_blocks hw, ← flatMap_blocks hw, h.size_eq]
  refine List.Perm.flatMap_left _ fun t _ => ?_
  rw [h.block_eq]
  exact List.mergeSort_perm _ _

namespace BottomUp

/-- Passes write to the borrowed array first, so the blocks that it holds last are those of the last
pass with an odd number. -/
theorem bufferAfter_eq_sourceAfter (data buffer : Array α) {p : Nat} (hp : 0 < p) :
    ∃ q, IsGreatest {e | e % 2 = 1 ∧ e ≤ p} q ∧ bufferAfter data buffer p = sourceAfter data q := by
  by_cases hodd : p % 2 = 1
  · refine ⟨p, ⟨⟨hodd, Nat.le_refl p⟩, fun e he => he.2⟩, ?_⟩
    rw [bufferAfter, if_pos hodd]
  · -- the last pass went back to the data, so the one before it is the last that was borrowed for
    obtain ⟨q, rfl⟩ : ∃ q, p = q + 1 := ⟨p - 1, by omega⟩
    refine ⟨q, ⟨⟨by omega, by omega⟩, ?_⟩, ?_⟩
    · rintro e ⟨he, hle⟩
      omega
    · rw [bufferAfter, if_neg hodd]
      rfl

/-- The blocks of the last odd pass are the whole array in order if that pass was the last of all,
or if they happened to be in order one after the other. -/
theorem lastOddBlocks_sourceAfter [Std.IsLinearOrder α] {data : Array α} {q : Nat}
    (hq : IsGreatest {e | e % 2 = 1 ∧ e ≤ Nat.clog 2 data.size} q) :
    LastOddBlocks data q (sourceAfter data q) where
  greatest := hq
  blocks := blocksSorted_sourceAfter data q
  sorted_iff := by
    constructor
    · intro hsorted
      rw [hsorted]
      exact .inr (pairwise_mergeSort _)
    · rintro (hodd | hsorted)
      · have hlast : q = Nat.clog 2 data.size :=
          Nat.le_antisymm hq.1.2 (hq.2 ⟨hodd, Nat.le_refl _⟩)
        rw [hlast]
        exact sourceAfter_clog data
      · have hperm := (blocksSorted_sourceAfter data q).perm (Nat.two_pow_pos q)
        exact (mergeSort_eq_of_sorted hperm.symm hsorted).symm

end BottomUp

/-- A sort that has work to do ends, and if it succeeds, it has put back what its passes made of the
array that it borrowed. -/
theorem sortWith_replaced [Inhabited α] (grant : Allocator) {strategy : Strategy} {data : Array α}
    (s : Scratch α) {done : Workspace α} (hsize : data.size < Word.largest)
    (hlen : strategy.supports data.size = true) (hidle : strategy.idleOn data = false)
    (hdone : strategy.run data data = .ok done) :
    ∃ r, sortWith grant strategy data s = .ok r ∧
      ((s.size < data.size → grant data.size = .ok ()) → r.failure = none) ∧
      (r.failure = none → s.Replaced done.buffer r.scratch) := by
  obtain ⟨r, hr, hend⟩ := sortWith_ending grant strategy s hsize
  refine ⟨r, hr, hend.success_of_granted hlen, fun hok => ?_⟩
  obtain ⟨done', hdone', hreplaced⟩ := hend.replaced hidle hok
  rw [hdone] at hdone'
  cases hdone'
  exact hreplaced

/-- A successful bottom-up sort that had work to do leaves the blocks of the last pass with an odd
number in the slots that it borrowed, and a successful fixed-mid sort leaves the sorted array there.
The slots behind them are as they were. -/
theorem scratch_after_sort [Inhabited α] [Std.IsLinearOrder α] (grant : Allocator) (data : Array α)
    (s : Scratch α) (h2 : 2 ≤ data.size) (hsize : data.size < Word.largest) :
    (¬data.toList.Pairwise (· ≤ ·) →
        ∃ r, sortWith grant .bottomUp data s = .ok r ∧
          ((s.size < data.size → grant data.size = .ok ()) → r.failure = none) ∧
          (r.failure = none → ∃ q part, part.size = data.size ∧ LastOddBlocks data q part ∧
            s.Replaced part r.scratch)) ∧
      (Strategy.supports .fixedMid data.size = true →
        ∃ r, sortWith grant .fixedMid data s = .ok r ∧
          ((s.size < data.size → grant data.size = .ok ()) → r.failure = none) ∧
          (r.failure = none → ∃ part, part.size = data.size ∧ Sorted data part ∧
            s.Replaced part r.scratch)) := by
  have hlimit := Word.lt_limit_of_lt_largest hsize
  constructor
  · intro hunordered
    have hidle : Strategy.idleOn .bottomUp data = false :=
      idleOn_eq_false_iff_unordered.mpr ⟨h2, .inr hunordered⟩
    obtain ⟨q, hq, hbuffer⟩ :=
      BottomUp.bufferAfter_eq_sourceAfter data data (Nat.clog_pos Nat.one_lt_two h2)
    obtain ⟨r, hr, hgranted, hreplaced⟩ :=
      sortWith_replaced grant s hsize rfl hidle (BottomUp.run_eq hlimit rfl)
    refine ⟨r, hr, hgranted, fun hok => ?_⟩
    exact ⟨q, _, BottomUp.size_sourceAfter data q, BottomUp.lastOddBlocks_sourceAfter hq,
      hbuffer ▸ hreplaced hok⟩
  · intro hlen
    have hidle : Strategy.idleOn .fixedMid data = false :=
      idleOn_eq_false_iff_unordered.mpr ⟨h2, .inl rfl⟩
    obtain ⟨k, hmid⟩ := (FixedMid.supports_iff_midpoint hlimit h2).mp hlen
    obtain ⟨r, hr, hgranted, hreplaced⟩ :=
      sortWith_replaced grant s hsize hlen hidle (FixedMid.run_eq h2 hsize hmid rfl)
    refine ⟨r, hr, hgranted, fun hok => ?_⟩
    exact ⟨_, FixedMid.size_dataAfter hmid (Nat.le_refl _),
      sorted_of_toList_eq (FixedMid.dataAfter_last hmid), hreplaced hok⟩

/-- Four elements and two passes, so the borrowed slots show the blocks of two; and three elements
with a scratch that has to grow. -/
theorem scratch_after_sort_four :
    (¬(#[4, 3, 2, 1] : Array Int32).toList.Pairwise (· ≤ ·) ∧
      ∃ r, sortWith .machine .bottomUp (#[4, 3, 2, 1] : Array Int32) ⟨#[9, 9, 9, 9, 8, 7]⟩ = .ok r ∧
        r.scratch.size = 6 ∧ r.scratch.slots[4]? = some 8 ∧
          block (r.scratch.slots.extract 0 4) 2 0 = [3, 4] ∧
            block (r.scratch.slots.extract 0 4) 2 1 = [1, 2]) ∧
      Strategy.supports .fixedMid (#[3, 1, 2] : Array Int32).size = true ∧
        ∃ r, sortWith .machine .fixedMid (#[3, 1, 2] : Array Int32) ⟨#[9]⟩ = .ok r ∧
          r.scratch.size = 3 ∧ (r.scratch.slots.extract 0 3).toList = [1, 2, 3] := by
  obtain ⟨hbottomUp, -⟩ := scratch_after_sort .machine (#[4, 3, 2, 1] : Array Int32)
    ⟨#[9, 9, 9, 9, 8, 7]⟩ (by decide) (by decide)
  obtain ⟨-, hfixedMid⟩ := scratch_after_sort .machine (#[3, 1, 2] : Array Int32) ⟨#[9]⟩
    (by decide) (by decide)
  obtain ⟨r, hr, hgranted, hleft⟩ := hbottomUp (by decide)
  obtain ⟨r', hr', hgranted', hleft'⟩ := hfixedMid (by decide)
  obtain ⟨q, part, hsize, hblocks, hreplaced⟩ := hleft (hgranted fun _ => rfl)
  obtain ⟨part', hsize', hsorted, hreplaced'⟩ := hleft' (hgranted' fun _ => rfl)
  obtain rfl : q = 1 := by
    have hodd : q % 2 = 1 := hblocks.greatest.1.1
    have hle : q ≤ 2 := hblocks.greatest.1.2
    omega
  have hfront : r.scratch.slots.extract 0 4 = part := by
    have h := hreplaced.front
    rwa [hsize] at h
  have hfront' : r'.scratch.slots.extract 0 3 = part' := by
    have h := hreplaced'.front
    rwa [hsize'] at h
  refine ⟨⟨by decide, r, hr, ?_, ?_, ?_, ?_⟩, by decide, r', hr', ?_, ?_⟩
  · exact hreplaced.size_eq.trans (by rw [hsize]; rfl)
  · exact hreplaced.behind 4 (Nat.le_of_eq hsize)
  · rw [hfront]
    exact (hblocks.blocks.block_eq 0).trans (mergeSort_eq_of_sorted (by decide) (by decide))
  · rw [hfront]
    exact (hblocks.blocks.block_eq 1).trans (mergeSort_eq_of_sorted (by decide) (by decide))
  · exact hreplaced'.size_eq.trans (by rw [hsize']; rfl)
  · rw [hfront']
    exact hsorted.eq_reference.trans (mergeSort_eq_of_sorted (by decide) (by decide))

end RunMerge
