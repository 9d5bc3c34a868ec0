import Mathlib.Data.List.Chain
import Mathlib.Data.List.Sort
import RunMerge.Sort

/-!
# Sorted lists

What the passes need to know about lists: merging sorted runs gives the sorted list of both, so a
merge of two stable sorts is the stable sort of the joined lists. The reference sort is
`List.mergeSort`. Keys may tie, so nothing here assumes that the order is antisymmetric.
-/

namespace RunMerge

variable {α : Type} [LE α] [DecidableLE α] [Std.IsLinearPreorder α]

theorem decide_le_trans (a b c : α) (hab : decide (a ≤ b) = true) (hbc : decide (b ≤ c) = true) :
    decide (a ≤ c) = true := by
  simp only [decide_eq_true_eq] at *
  exact Std.IsPreorder.le_trans a b c hab hbc

theorem decide_le_total (a b : α) : (decide (a ≤ b) || decide (b ≤ a)) = true := by
  simpa using Std.IsLinearPreorder.le_total a b

theorem pairwise_mergeSort (xs : List α) : xs.mergeSort.Pairwise (· ≤ ·) := by
  have h := List.pairwise_mergeSort decide_le_trans decide_le_total xs
  simpa using h

omit [Std.IsLinearPreorder α] in
theorem mergeSort_of_sorted {xs : List α} (h : xs.Pairwise (· ≤ ·)) : xs.mergeSort = xs :=
  List.mergeSort_of_pairwise (by simpa using h)

omit [DecidableLE α] [Std.IsLinearPreorder α] in
theorem pairwise_of_length_le_one {xs : List α} (h : xs.length ≤ 1) : xs.Pairwise (· ≤ ·) := by
  cases xs with
  | nil => exact List.Pairwise.nil
  | cons x xs =>
    have hnil : xs = [] := List.length_eq_zero_iff.mp (by simpa using h)
    rw [hnil]
    exact List.pairwise_singleton _ x

omit [Std.IsLinearPreorder α] in
/-- The place of an insertion: behind what is less, before what is not. -/
theorem orderedInsert_between {x : α} {before after : List α} (hb : ∀ y ∈ before, ¬x ≤ y)
    (ha : ∀ y ∈ after, x ≤ y) :
    (before ++ after).orderedInsert (· ≤ ·) x = before ++ x :: after := by
  induction before with
  | nil =>
    cases after with
    | nil => rfl
    | cons y after => exact List.orderedInsert_cons_of_le _ _ (ha y List.mem_cons_self)
  | cons y before ih =>
    have hy : ¬x ≤ y := hb y List.mem_cons_self
    have htail := ih fun z hz => hb z (List.mem_cons_of_mem y hz)
    rw [List.cons_append, List.orderedInsert_of_not_le _ _ hy, htail]
    rfl

/-- Sorting puts the first element before all elements that it does not exceed. -/
theorem mergeSort_cons (x : α) (xs : List α) :
    (x :: xs).mergeSort = xs.mergeSort.orderedInsert (· ≤ ·) x := by
  obtain ⟨before, after, hcons, htail, hbefore⟩ :=
    List.mergeSort_cons decide_le_trans decide_le_total x xs
  have hsorted := pairwise_mergeSort (x :: xs)
  rw [hcons] at hsorted
  have hafter := (List.pairwise_cons.mp (List.pairwise_append.mp hsorted).2.1).1
  rw [hcons, htail, orderedInsert_between (by simpa using hbefore) hafter]

omit [Std.IsLinearPreorder α] in
theorem merge_cons_of_le {x y : α} (xs ys : List α) (h : x ≤ y) :
    List.merge (x :: xs) (y :: ys) = x :: List.merge xs (y :: ys) :=
  List.cons_merge_cons_pos _ xs ys (decide_eq_true h)

omit [Std.IsLinearPreorder α] in
theorem merge_cons_of_not_le {x y : α} (xs ys : List α) (h : ¬x ≤ y) :
    List.merge (x :: xs) (y :: ys) = y :: List.merge (x :: xs) ys :=
  List.cons_merge_cons_neg _ xs ys (by simpa using h)

omit [Std.IsLinearPreorder α] in
/-- Inserting an element that exceeds no head before or after a merge is the same. -/
theorem orderedInsert_merge_of_le {x z y : α} (xs ys : List α) (hxz : x ≤ z) (hxy : x ≤ y) :
    (List.merge (z :: xs) (y :: ys)).orderedInsert (· ≤ ·) x =
      x :: List.merge (z :: xs) (y :: ys) := by
  by_cases hzy : z ≤ y
  · rw [merge_cons_of_le xs ys hzy, List.orderedInsert_cons_of_le _ _ hxz]
  · rw [merge_cons_of_not_le xs ys hzy, List.orderedInsert_cons_of_le _ _ hxy]

/-- Inserting into the left run before a merge or into its result is the same. The cases follow the
order of the new element and the two heads. -/
theorem merge_orderedInsert (x : α) (xs ys : List α) :
    List.merge (xs.orderedInsert (· ≤ ·) x) ys = (List.merge xs ys).orderedInsert (· ≤ ·) x := by
  induction xs generalizing ys with
  | nil =>
    induction ys with
    | nil => simp
    | cons y ys ih =>
      by_cases hxy : x ≤ y
      · simp [hxy]
      · simpa [hxy] using ih
  | cons z xs ihx =>
    induction ys with
    | nil => simp
    | cons y ys ihy =>
      by_cases hxz : x ≤ z
      · rw [List.orderedInsert_cons_of_le _ _ hxz] at ihy ⊢
        by_cases hxy : x ≤ y
        · rw [merge_cons_of_le _ _ hxy, orderedInsert_merge_of_le xs ys hxz hxy]
        · have hzy : ¬z ≤ y := fun hzy => hxy (Std.IsPreorder.le_trans x z y hxz hzy)
          rw [merge_cons_of_not_le _ _ hxy, merge_cons_of_not_le _ _ hzy, ihy,
            List.orderedInsert_of_not_le _ _ hxy]
      · rw [List.orderedInsert_of_not_le _ _ hxz] at ihy ⊢
        by_cases hzy : z ≤ y
        · rw [merge_cons_of_le _ _ hzy, merge_cons_of_le _ _ hzy, ihx,
            List.orderedInsert_of_not_le _ _ hxz]
        · have hyz : y ≤ z := (Std.IsLinearPreorder.le_total z y).resolve_left hzy
          have hxy : ¬x ≤ y := fun hxy => hxz (Std.IsPreorder.le_trans x y z hxy hyz)
          rw [merge_cons_of_not_le _ _ hzy, merge_cons_of_not_le _ _ hzy, ihy,
            List.orderedInsert_of_not_le _ _ hxy]

theorem merge_mergeSort (xs ys : List α) :
    List.merge xs.mergeSort ys.mergeSort = (xs ++ ys).mergeSort := by
  induction xs with
  | nil => simp
  | cons x xs ih => rw [mergeSort_cons, merge_orderedInsert, ih, List.cons_append, mergeSort_cons]

omit [Std.IsLinearPreorder α] in
/-- Without ties the sorted list depends on the elements alone. -/
theorem mergeSort_eq_of_perm [Std.IsLinearOrder α] {xs ys : List α} (h : xs.Perm ys) :
    xs.mergeSort = ys.mergeSort := by
  have hperm : xs.mergeSort.Perm ys.mergeSort :=
    (List.mergeSort_perm xs _).trans (h.trans (List.mergeSort_perm ys _).symm)
  exact hperm.eq_of_pairwise (fun a b _ _ => Std.IsPartialOrder.le_antisymm a b)
    (pairwise_mergeSort xs) (pairwise_mergeSort ys)

omit [Std.IsLinearPreorder α] in
/-- A list that has the same elements and is in order is the sorted list. -/
theorem mergeSort_eq_of_sorted [Std.IsLinearOrder α] {xs ys : List α} (h : xs.Perm ys)
    (hsorted : ys.Pairwise (· ≤ ·)) : xs.mergeSort = ys := by
  rw [mergeSort_eq_of_perm h, mergeSort_of_sorted hsorted]

/-- Two sorted runs whose boundary is in order are sorted as they stand. -/
theorem merge_eq_append {xs ys : List α} (hxs : xs.Pairwise (· ≤ ·)) (hys : ys.Pairwise (· ≤ ·))
    (h : ∀ x ∈ xs.getLast?, ∀ y ∈ ys.head?, x ≤ y) : List.merge xs ys = xs ++ ys := by
  have hchain : (xs ++ ys).IsChain (· ≤ ·) :=
    List.isChain_append.mpr
      ⟨List.isChain_iff_pairwise.mpr hxs, List.isChain_iff_pairwise.mpr hys, h⟩
  have hcross := (List.pairwise_append.mp (List.isChain_iff_pairwise.mp hchain)).2.2
  exact List.merge_of_le fun a b ha hb => decide_eq_true (hcross a ha b hb)

omit [Std.IsLinearPreorder α] in
theorem nonDecreasing_iff_isChain (xs : List α) :
    nonDecreasing xs = true ↔ xs.IsChain (· ≤ ·) := by
  induction xs with
  | nil => simp
  | cons x xs ih =>
    cases xs with
    | nil => simp
    | cons y rest => simp [ih]

/-- The test of neighbours decides whether all pairs are in order. -/
theorem nonDecreasing_iff (xs : List α) : nonDecreasing xs = true ↔ xs.Pairwise (· ≤ ·) :=
  (nonDecreasing_iff_isChain xs).trans List.isChain_iff_pairwise

theorem isSorted_iff {data : Array α} : isSorted data = true ↔ data.toList.Pairwise (· ≤ ·) :=
  nonDecreasing_iff data.toList

omit [DecidableLE α] [Std.IsLinearPreorder α] in
theorem pairwise_of_size_lt_two {data : Array α} (h : data.size < 2) :
    data.toList.Pairwise (· ≤ ·) :=
  pairwise_of_length_le_one (Nat.le_of_lt_succ h)

omit [DecidableLE α] [Std.IsLinearPreorder α] in
theorem two_le_size_of_unordered {data : Array α} (h : ¬data.toList.Pairwise (· ≤ ·)) :
    2 ≤ data.size :=
  Nat.le_of_not_lt fun hsmall => h (pairwise_of_size_lt_two hsmall)

end RunMerge
