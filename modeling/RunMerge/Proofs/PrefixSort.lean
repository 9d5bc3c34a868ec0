import RunMerge.Proofs.PassLog
import RunMerge.Proofs.SortedOutput

/-!
# Sorting a prefix

A prefix sort is a sort of the prefix, with the rest of the array put back behind it. What it makes
of the prefix depends on the elements there and not on their order. So it makes no difference to the
outcome if a shorter prefix was sorted before, though that may save the longer sort its passes.
-/

namespace RunMerge

variable {α : Type} [LE α] [DecidableLE α]

structure PrefixSorted (before : Array α) (n : Nat) (after : Array α) : Prop where
  size_eq : after.size = before.size
  front : Sorted (before.extract 0 n) (after.extract 0 n)
  behind : ∀ i, n ≤ i → after[i]? = before[i]?

namespace PrefixSorted

variable {before before' after after' : Array α} {n m : Nat}

theorem extract_behind (h : PrefixSorted before n after) (hnm : n ≤ m) (past : Nat) :
    after.extract m past = before.extract m past := by
  apply Array.ext_getElem?
  intro i
  rw [Array.getElem?_extract, Array.getElem?_extract, h.size_eq, h.behind (m + i) (by omega)]

/-- Sorting a prefix moves no element out of a longer one. -/
theorem perm_of_le (h : PrefixSorted before n after) (hnm : n ≤ m) :
    (after.extract 0 m).toList.Perm (before.extract 0 m).toList := by
  have hsplit : ∀ xs : Array α,
      (xs.extract 0 m).toList = (xs.extract 0 n).toList ++ (xs.extract n m).toList := by
    intro xs
    rw [← Array.toList_append, Array.extract_append_extract, Nat.min_eq_left (Nat.zero_le n),
      Nat.max_eq_right hnm]
  rw [hsplit, hsplit, h.extract_behind (Nat.le_refl n)]
  exact h.front.perm.append_right _

/-- Two arrays that have the same elements in the prefix, in whatever order, and agree behind it
have the same outcome. -/
theorem eq_of_perm [Std.IsLinearOrder α] (h : PrefixSorted before m after)
    (h' : PrefixSorted before' m after')
    (hfront : (before'.extract 0 m).toList.Perm (before.extract 0 m).toList)
    (hbehind : before'.extract m before'.size = before.extract m before.size) : after' = after := by
  have hsorted : after'.extract 0 m = after.extract 0 m := by
    apply Array.toList_inj.mp
    rw [h.front.eq_reference, h'.front.eq_reference, mergeSort_eq_of_perm hfront]
  have hrest : after'.extract m after'.size = after.extract m after.size := by
    rw [h.extract_behind (Nat.le_refl m), h'.extract_behind (Nat.le_refl m), h.size_eq, h'.size_eq,
      hbehind]
  rw [← Slots.extract_append_rest after' m, hsorted, hrest, Slots.extract_append_rest after m]

end PrefixSorted

/-- A sorted prefix with the rest put back behind it. -/
theorem Sorted.prefixSorted {before front : Array α} {n : Nat} (hn : n ≤ before.size)
    (h : Sorted (before.extract 0 n) front) :
    PrefixSorted before n (front ++ before.extract n before.size) := by
  have hsize : front.size = n := by
    have hlength := h.perm.length_eq
    simp only [Array.length_toList, Array.size_extract] at hlength
    omega
  constructor
  case size_eq =>
    rw [Array.size_append, Array.size_extract, hsize]
    omega
  case front =>
    have hfront : (front ++ before.extract n before.size).extract 0 n = front := by
      rw [Array.extract_append, hsize, Nat.sub_self, ← hsize, Array.extract_size]
      simp
    rw [hfront]
    exact h
  case behind =>
    intro i hi
    rw [Array.getElem?_append_right (by omega), Array.getElem?_extract, hsize,
      Nat.add_sub_cancel' hi, Nat.min_self]
    by_cases hs : i < before.size
    · rw [if_pos (by omega)]
    · rw [if_neg (by omega), Array.getElem?_eq_none (by omega)]

variable [Inhabited α]

/-- A prefix sort of the whole array has nothing to put back. -/
theorem mergeSortPrefix_size (grant : Allocator) (data : Array α) :
    mergeSortPrefix grant data data.size = mergeSort grant data := by
  rw [mergeSortPrefix_within grant (Nat.le_refl data.size), Array.extract_size]
  cases mergeSort grant data with
  | error fault => rfl
  | ok r => simp

/-- A prefix sort ends as the sort of the prefix does. -/
theorem mergeSortPrefix_ending (grant : Allocator) {data : Array α} {n : Nat} (hn : n ≤ data.size)
    (hsize : data.size < Word.largest) :
    ∃ r, mergeSort grant (data.extract 0 n) = .ok r ∧
      Ending grant .bottomUp (data.extract 0 n) .empty r ∧
      mergeSortPrefix grant data n = .ok { r with data := r.data ++ data.extract n data.size } := by
  have hpart : (data.extract 0 n).size < Word.largest := by
    rw [Array.size_extract]
    omega
  obtain ⟨r, hr, hend⟩ := sortWith_ending grant .bottomUp (.empty : Scratch α) hpart
  have hsort : mergeSort grant (data.extract 0 n) = .ok r := hr
  refine ⟨r, hsort, hend, ?_⟩
  rw [mergeSortPrefix_within grant hn, hsort]
  rfl

/-- A prefix sort that succeeds sorts the prefix and leaves the rest alone. -/
theorem prefixSorted_of_success [Std.IsLinearPreorder α] {grant : Allocator} {data : Array α}
    {n : Nat} {r : Report α} (hn : n ≤ data.size) (hsize : data.size < Word.largest)
    (hr : mergeSortPrefix grant data n = .ok r) (hok : r.failure = none) :
    PrefixSorted data n r.data := by
  obtain ⟨r', hsort, -, hprefix⟩ := mergeSortPrefix_ending grant hn hsize
  rw [hr] at hprefix
  cases hprefix
  have hpart : (data.extract 0 n).size < Word.limit := by
    have hlimit := Word.lt_limit_of_lt_largest hsize
    rw [Array.size_extract]
    omega
  have hsorts := sortWith_bottomUp_sorts grant (.empty : Scratch α) hpart
  exact (hsorts.sorted hsort hok).prefixSorted hn

/-- A prefix sort fails and logs as the sort of an array that equals the prefix. If it succeeds, it
has sorted the first `n` elements, left all others alone and logged a full schedule for `n`. To sort
a shorter prefix first changes nothing in the outcome, and the prefix of all elements is the whole
array. -/
theorem mergeSortPrefix_frame [Std.IsLinearOrder α] (grant : Allocator) (data : Array α) (n : Nat)
    (hn : n ≤ data.size) (hsize : data.size < Word.largest) :
    (∃ r r', mergeSortPrefix grant data n = .ok r ∧ mergeSort grant (data.extract 0 n) = .ok r' ∧
        r.failure = r'.failure ∧ r.log = r'.log ∧ (grant n = .ok () → r.failure = none) ∧
        (r.failure = none → PrefixSorted data n r.data ∧
          r.log = Strategy.fullLog .bottomUp (data.extract 0 n))) ∧
      (∀ m, n ≤ m → m ≤ data.size → ∀ (grant₁ grant₂ : Allocator) (r r₁ r₂ : Report α),
        mergeSortPrefix grant data n = .ok r → r.failure = none →
          mergeSortPrefix grant₁ r.data m = .ok r₁ → r₁.failure = none →
            mergeSortPrefix grant₂ data m = .ok r₂ → r₂.failure = none → r₁.data = r₂.data) ∧
      mergeSortPrefix grant data data.size = mergeSort grant data := by
  refine ⟨?_, ?_, mergeSortPrefix_size grant data⟩
  · obtain ⟨r, hsort, hend, hprefix⟩ := mergeSortPrefix_ending grant hn hsize
    have hpart : (data.extract 0 n).size = n := by
      rw [Array.size_extract]
      omega
    refine ⟨_, r, hprefix, hsort, rfl, rfl, fun hgrant => ?_, fun hok => ⟨?_, ?_⟩⟩
    · exact hend.success_of_granted rfl fun _ => hpart.symm ▸ hgrant
    · exact prefixSorted_of_success hn hsize hprefix hok
    · exact hend.log_eq (by omega) hok
  · intro m hnm hm grant₁ grant₂ r r₁ r₂ hr hok hr₁ hok₁ hr₂ hok₂
    have hshort := prefixSorted_of_success hn hsize hr hok
    have hafter := prefixSorted_of_success (hshort.size_eq ▸ hm) (hshort.size_eq ▸ hsize) hr₁ hok₁
    have halone := prefixSorted_of_success hm hsize hr₂ hok₂
    refine halone.eq_of_perm hafter (hshort.perm_of_le hnm) ?_
    rw [hshort.extract_behind hnm, hshort.size_eq]

/-- Two of three elements are sorted first, which leaves nothing to do for all three. -/
theorem mergeSortPrefix_frame_three :
    (2 ≤ (#[2, 1, 3] : Array Int32).size ∧ (#[2, 1, 3] : Array Int32).size < Word.largest) ∧
      ∃ r r₁ r₂, mergeSortPrefix .machine (#[2, 1, 3] : Array Int32) 2 = .ok r ∧
        r.data = #[1, 2, 3] ∧ r.log = [.sorting .bottomUp 2, .mergePass 1] ∧
        mergeSortPrefix .machine r.data 3 = .ok r₁ ∧ r₁.log = [.sorting .bottomUp 3] ∧
        mergeSortPrefix .machine (#[2, 1, 3] : Array Int32) 3 = .ok r₂ ∧
        r₂.log = [.sorting .bottomUp 3, .mergePass 1, .mergePass 2] ∧ r₁.data = r₂.data := by
  obtain ⟨⟨r, -, hr, -, -, -, hgranted, hends⟩, htwice, -⟩ :=
    mergeSortPrefix_frame .machine (#[2, 1, 3] : Array Int32) 2 (by decide) (by decide)
  obtain ⟨hsorted, hlog⟩ := hends (hgranted rfl)
  have hfront : r.data.extract 0 2 = #[1, 2] := by
    apply Array.toList_inj.mp
    rw [hsorted.front.eq_reference]
    exact mergeSort_eq_of_sorted (by decide) (by decide)
  have hdata : r.data = #[1, 2, 3] := by
    rw [← Slots.extract_append_rest r.data 2, hfront, hsorted.extract_behind (Nat.le_refl 2),
      hsorted.size_eq]
    rfl
  obtain ⟨⟨r₁, -, hr₁, -, -, -, hgranted₁, hends₁⟩, -⟩ :=
    mergeSortPrefix_frame .machine r.data 3 (by simp [hdata]) (by simp [hdata]; decide)
  obtain ⟨⟨r₂, -, hr₂, -, -, -, hgranted₂, hends₂⟩, -⟩ :=
    mergeSortPrefix_frame .machine (#[2, 1, 3] : Array Int32) 3 (by decide) (by decide)
  have hlog₁ := (hends₁ (hgranted₁ rfl)).2
  rw [hdata] at hlog₁
  refine ⟨by decide, r, r₁, r₂, hr, hdata, hlog.trans (by decide), hr₁, hlog₁.trans (by decide),
    hr₂, (hends₂ (hgranted₂ rfl)).2.trans (by decide), ?_⟩
  exact htwice 3 (by decide) (by decide) _ _ r r₁ r₂ hr (hgranted rfl) hr₁ (hgranted₁ rfl) hr₂
    (hgranted₂ rfl)

end RunMerge
