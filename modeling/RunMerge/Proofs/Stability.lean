import RunMerge.Proofs.SortedOutput

/-!
# The bottom-up sort is stable

The bottom-up sort does nothing with elements but compare and copy them. So replacing every element
by another, in a way that keeps every comparison, replaces the elements of the outcome and changes
nothing else: not where an element goes, not the log, not a refusal and not even a fault. One lemma
for each operation says that it commutes with such a replacement; no bound on a size and no law of
the order is needed.

Pairs of a key and a tag are compared by their keys, so a sort of pairs does to the keys what a
sort of the keys alone does, and the tags show where equal keys have gone. They keep their order:
the passes give the reference sort, and that one moves no element past an equal one.
-/

namespace RunMerge

section Relabelling

variable {α β : Type}

/-- Elements are replaced so that every comparison comes out as before. -/
def KeepsOrder [LE α] [LE β] (f : α → β) : Prop := ∀ x y, f x ≤ f y ↔ x ≤ y

section Maps

variable (f : α → β)

def Cursor.map (c : Cursor α) : Cursor β := ⟨c.left, c.right, c.out, c.dst.map f⟩

def Workspace.map (w : Workspace α) : Workspace β := ⟨w.data.map f, w.buffer.map f, w.log⟩

def BottomUp.Exchange.map (x : Exchange α) : Exchange β :=
  ⟨x.source.map f, x.target.map f, x.turned, x.log⟩

def Scratch.map (s : Scratch α) : Scratch β := ⟨s.slots.map f⟩

def Report.map (r : Report α) : Report β := ⟨r.data.map f, r.scratch.map f, r.log, r.failure⟩

@[simp] theorem Cursor.left_map (c : Cursor α) : (c.map f).left = c.left := rfl

@[simp] theorem Cursor.right_map (c : Cursor α) : (c.map f).right = c.right := rfl

@[simp] theorem Cursor.out_map (c : Cursor α) : (c.map f).out = c.out := rfl

@[simp] theorem Cursor.dst_map (c : Cursor α) : (c.map f).dst = c.dst.map f := rfl

@[simp] theorem Scratch.size_map (s : Scratch α) : (s.map f).size = s.size := Array.size_map

end Maps

namespace Checked

@[simp] theorem map_ok (f : α → β) (x : α) : f <$> (.ok x : Checked α) = .ok (f x) := rfl

/-- Steps that commute with a map make a run that does. -/
theorem foldlM_map {ι : Type} {f : α → β} {g : α → ι → Checked α} {g' : β → ι → Checked β}
    (hstep : ∀ a i, g' (f a) i = f <$> g a i) (is : List ι) (a : α) :
    is.foldlM g' (f a) = f <$> is.foldlM g a := by
  induction is generalizing a with
  | nil => rfl
  | cons i is ih => simp [List.foldlM_cons, hstep, ih]

end Checked

namespace Slots

theorem fetch_map (f : α → β) (xs : Array α) (i : Nat) :
    fetch (xs.map f) i = f <$> fetch xs i := by
  by_cases h : i < xs.size
  · simp [h]
  · simp [fetch, h]

theorem store_map (f : α → β) (xs : Array α) (i : Nat) (x : α) :
    store (xs.map f) i (f x) = Array.map f <$> store xs i x := by
  by_cases h : i < xs.size
  · simp [h, Array.map_set]
  · simp [store, h]

theorem transfer_map (f : α → β) (src : Array α) (count i : Nat) (dst : Array α) (k : Nat) :
    transfer (src.map f) count i (dst.map f) k = Array.map f <$> transfer src count i dst k := by
  induction count generalizing i dst k with
  | zero => rfl
  | succ count ih => simp [transfer, fetch_map, store_map, ih]

theorem copyRange_map (f : α → β) (src dst : Array α) (first past k : Nat) :
    copyRange (src.map f) (dst.map f) first past k =
      Array.map f <$> copyRange src dst first past k := by
  simp [copyRange, transfer_map]

theorem replace_map (f : α → β) (dst src : Array α) :
    replace (dst.map f) (src.map f) = Array.map f <$> replace dst src := by
  by_cases h : dst.size = src.size
  · simp [replace, h]
  · simp [replace, h]

end Slots

namespace Scratch

theorem first_map (f : α → β) (s : Scratch α) (len : Nat) :
    (s.map f).first len = Array.map f <$> s.first len := by
  simp [first, map, size]

theorem restore_map (f : α → β) (s : Scratch α) (part : Array α) :
    (s.map f).restore (part.map f) = (s.restore part).map f := by
  simp [restore, map, size]

/-- New slots hold the default element on both sides. -/
theorem ensure_map [Inhabited α] [Inhabited β] {f : α → β} (hdefault : f default = default)
    (grant : Allocator) (s : Scratch α) (len : Nat) :
    (s.map f).ensure grant len = Except.map (map f) <$> s.ensure grant len := by
  rw [ensure, ensure, size_map]
  by_cases h : s.size < len
  · rw [if_pos h, if_pos h, map_bind]
    congr 1
    funext missing
    cases grant (s.size + missing) with
    | error cause => rfl
    | ok u => simp [Except.map, map, hdefault]
  · rw [if_neg h, if_neg h]
    rfl

end Scratch

theorem BottomUp.Exchange.settle_map (f : α → β) (x : Exchange α) :
    (x.map f).settle = Workspace.map f <$> x.settle := by
  cases h : x.turned with
  | true =>
    simp only [Exchange.settle, Exchange.map, h, if_true, Slots.replace_map, bind_map_left,
      map_bind]
    rfl
  | false =>
    simp only [Exchange.settle, Exchange.map, h]
    rfl

variable [LE α] [DecidableLE α] [LE β] [DecidableLE β] {f : α → β}

theorem nonDecreasing_map (hf : KeepsOrder f) (xs : List α) :
    nonDecreasing (xs.map f) = nonDecreasing xs := by
  induction xs with
  | nil => rfl
  | cons x xs ih =>
    cases xs with
    | nil => rfl
    | cons y rest =>
      rw [List.map_cons] at ih
      simp [hf x y, ih]

theorem isSorted_map (hf : KeepsOrder f) (xs : Array α) : isSorted (xs.map f) = isSorted xs := by
  rw [isSorted, Array.toList_map, nonDecreasing_map hf, isSorted]

/-- A comparison of two replaced heads moves the same head. -/
theorem Cursor.mergeHeads_map (hf : KeepsOrder f) (src : Array α) (leftEnd rightEnd : Nat)
    (c : Cursor α) :
    (c.map f).mergeHeads (src.map f) leftEnd rightEnd =
      Cursor.map f <$> c.mergeHeads src leftEnd rightEnd := by
  induction hn : (leftEnd - c.left) + (rightEnd - c.right) using Nat.strongRecOn generalizing c with
  | ind n ih =>
    rw [mergeHeads, mergeHeads, left_map, right_map, out_map, dst_map]
    by_cases h : c.left < leftEnd ∧ c.right < rightEnd
    · rw [if_pos h, if_pos h]
      simp only [Slots.fetch_map, bind_map_left, map_bind]
      congr 1
      funext x
      congr 1
      funext y
      -- both sides compare the same way, so they take the same head
      by_cases hxy : x ≤ y
      · simp only [hf x y, hxy, if_true, Slots.store_map, bind_map_left, map_bind]
        congr 1
        funext dst
        exact ih _ (by simp only; omega) ⟨c.left + 1, c.right, c.out + 1, dst⟩ rfl
      · simp only [hf x y, hxy, if_false, Slots.store_map, bind_map_left, map_bind]
        congr 1
        funext dst
        exact ih _ (by simp only; omega) ⟨c.left, c.right + 1, c.out + 1, dst⟩ rfl
    · rw [if_neg h, if_neg h]
      rfl

theorem mergeRanges_map (hf : KeepsOrder f) (src dst : Array α) (left mid right : Nat) :
    mergeRanges (src.map f) (dst.map f) left mid right =
      Array.map f <$> mergeRanges src dst left mid right := by
  have hmerge := Cursor.mergeHeads_map hf src mid right ⟨left, mid, left, dst⟩
  rw [Cursor.map] at hmerge
  rw [mergeRanges, mergeRanges, hmerge, bind_map_left, map_bind]
  congr 1
  funext c
  by_cases hl : c.left < mid
  · simp [hl, Slots.copyRange_map]
  · by_cases hr : c.right < right
    · simp [hl, hr, Slots.copyRange_map]
    · simp [hl, hr]

namespace BottomUp

theorem boundaryInOrder_map (hf : KeepsOrder f) (src : Array α) (mid : Nat) :
    boundaryInOrder (src.map f) mid = boundaryInOrder src mid := by
  simp [boundaryInOrder, Slots.fetch_map, hf _ _]

theorem settleWindow_map (hf : KeepsOrder f) (src dst : Array α) (w : Window) :
    settleWindow (src.map f) (dst.map f) w = Array.map f <$> settleWindow src dst w := by
  unfold settleWindow
  split
  · exact Slots.copyRange_map f src dst w.left w.right w.left
  · rw [boundaryInOrder_map hf, map_bind]
    congr 1
    funext inOrder
    cases inOrder with
    | true => exact Slots.copyRange_map f src dst w.left w.right w.left
    | false => exact mergeRanges_map hf src dst w.left w.mid w.right

theorem pass_map (hf : KeepsOrder f) (src dst : Array α) (width : Nat) :
    pass (src.map f) (dst.map f) width = Array.map f <$> pass src dst width := by
  rw [pass, pass, Array.size_map]
  exact Checked.foldlM_map (settleWindow_map hf src) _ dst

theorem Exchange.step_map (hf : KeepsOrder f) (x : Exchange α) (width : Nat) :
    (x.map f).step width = Exchange.map f <$> x.step width := by
  simp only [Exchange.step, Exchange.map, pass_map hf, bind_map_left, map_bind]
  rfl

/-- All passes, the exchanges between them and the copy back commute with a replacement. -/
theorem run_map (hf : KeepsOrder f) (data buffer : Array α) :
    run (data.map f) (buffer.map f) = Workspace.map f <$> run data buffer := by
  have hpasses := Checked.foldlM_map (Exchange.step_map hf) (widths data.size)
    ⟨data, buffer, false, []⟩
  rw [Exchange.map] at hpasses
  rw [run, run, Array.size_map, hpasses, bind_map_left, map_bind]
  congr 1
  funext x
  exact x.settle_map f

end BottomUp

variable [Inhabited α] [Inhabited β]

theorem sortWith_map (hf : KeepsOrder f) (hdefault : f default = default) (grant : Allocator)
    (data : Array α) (s : Scratch α) :
    sortWith grant .bottomUp (data.map f) (s.map f) =
      Report.map f <$> sortWith grant .bottomUp data s := by
  have hidle : Strategy.idleOn .bottomUp (data.map f) = Strategy.idleOn .bottomUp data := by
    simp [Strategy.idleOn, isSorted_map hf]
  simp only [sortWith, Array.size_map, Strategy.supports_bottomUp, Bool.not_true, hidle]
  cases h : Strategy.idleOn .bottomUp data with
  | true => rfl
  | false =>
    simp only [Bool.false_eq_true, if_false, Scratch.ensure_map hdefault, bind_map_left, map_bind]
    congr 1
    funext outcome
    cases outcome with
    | error cause => rfl
    | ok grown =>
      simp only [Except.map, Scratch.first_map, Strategy.run, BottomUp.run_map hf, bind_map_left,
        map_bind, Workspace.map, Scratch.restore_map]
      rfl

end Relabelling

section

variable {α : Type} [LE α] [DecidableLE α] [Std.IsLinearPreorder α]

/-- Elements that all compare as equal stay in their order. They form a list that is sorted
already, so they are found in the sorted list as they stand. -/
theorem filter_mergeSort {p : α → Bool} (hp : ∀ x y, p x = true → p y = true → x ≤ y)
    (xs : List α) : xs.mergeSort.filter p = xs.filter p := by
  have hsorted : (xs.filter p).Pairwise (fun x y => decide (x ≤ y) = true) := by
    apply List.pairwise_of_forall_mem_list
    intro x hx y hy
    exact decide_eq_true (hp x y (List.of_mem_filter hx) (List.of_mem_filter hy))
  have hsub : (xs.filter p).Sublist xs.mergeSort :=
    List.sublist_mergeSort decide_le_trans decide_le_total hsorted List.filter_sublist
  have hfiltered : (xs.filter p).Sublist (xs.mergeSort.filter p) := by
    simpa only [List.filter_filter, Bool.and_self] using hsub.filter p
  have hlength : (xs.filter p).length = (xs.mergeSort.filter p).length :=
    ((List.mergeSort_perm xs _).filter p).length_eq.symm
  exact (hfiltered.eq_of_length hlength).symm

end

variable {τ : Type}

namespace Tagged

theorem keepsOrder_key : KeepsOrder (key : Tagged τ → Int32) := fun _ _ => Iff.rfl

/-- The order of the keys is not antisymmetric, for pairs may differ in their tags alone. -/
instance : Std.IsLinearPreorder (Tagged τ) where
  le_refl x := Std.IsPreorder.le_refl x.key
  le_trans x y z := Std.IsPreorder.le_trans x.key y.key z.key
  le_total x y := Std.IsLinearPreorder.le_total x.key y.key

end Tagged

structure StablySorted (before after : Array (Tagged τ)) : Prop where
  ascending : ∀ i j, (hij : i < j) → (hj : j < after.size) → after[i].key ≤ after[j].key
  perm : after.toList.Perm before.toList
  ties : ∀ k, after.toList.filter (·.key == k) = before.toList.filter (·.key == k)

theorem Sorted.stablySorted {before after : Array (Tagged τ)} (h : Sorted before after) :
    StablySorted before after where
  ascending := h.ascending
  perm := h.perm
  ties k := by
    rw [h.eq_reference]
    apply filter_mergeSort
    intro x y hx hy
    rw [beq_iff_eq] at hx hy
    rw [Tagged.le_iff, hx, hy]
    exact Std.IsPreorder.le_refl k

variable [Inhabited τ]

/-- On the keys, a sort of pairs is the sort of the keys, with its log, its refusals and what it
leaves in the scratch. Unless memory is refused the pairs end up stably sorted. -/
theorem bottomUp_stable (grant : Allocator) (data : Array (Tagged τ)) (s : Scratch (Tagged τ))
    (hsize : data.size < Word.largest) :
    sortWith grant .bottomUp (data.map Tagged.key) (s.map Tagged.key) =
        Report.map Tagged.key <$> sortWith grant .bottomUp data s ∧
      ∃ r, sortWith grant .bottomUp data s = .ok r ∧
        ((s.size < data.size → grant data.size = .ok ()) → r.failure = none) ∧
          (r.failure = none → StablySorted data r.data) := by
  refine ⟨sortWith_map Tagged.keepsOrder_key rfl grant data s, ?_⟩
  obtain ⟨r, hr, hend⟩ := sortWith_ending grant .bottomUp s hsize
  obtain ⟨r', hr', hsorted⟩ := sortWith_bottomUp_sorts grant s (Word.lt_limit_of_lt_largest hsize)
  rw [hr] at hr'
  cases hr'
  exact ⟨r, hr, hend.success_of_granted rfl, fun hok => (hsorted hok).stablySorted⟩

/-- Two pairs of each of two keys. -/
theorem bottomUp_stable_four :
    (#[⟨2, 'a'⟩, ⟨1, 'b'⟩, ⟨2, 'c'⟩, ⟨1, 'd'⟩] : Array (Tagged Char)).size < Word.largest ∧
      ∃ r, sortWith .machine .bottomUp
          (#[⟨2, 'a'⟩, ⟨1, 'b'⟩, ⟨2, 'c'⟩, ⟨1, 'd'⟩] : Array (Tagged Char)) .empty = .ok r ∧
        sortWith .machine .bottomUp #[2, 1, 2, 1] .empty = .ok (r.map Tagged.key) ∧
          r.failure = none ∧ r.data.toList.filter (·.key == 1) = [⟨1, 'b'⟩, ⟨1, 'd'⟩] ∧
            r.data.toList.filter (·.key == 2) = [⟨2, 'a'⟩, ⟨2, 'c'⟩] := by
  obtain ⟨hkeys, r, hr, hgranted, hstable⟩ := bottomUp_stable .machine
    (#[⟨2, 'a'⟩, ⟨1, 'b'⟩, ⟨2, 'c'⟩, ⟨1, 'd'⟩] : Array (Tagged Char)) .empty (by decide)
  have hok := hgranted fun _ => rfl
  rw [hr, Checked.map_ok] at hkeys
  have hkeys' : sortWith .machine .bottomUp #[2, 1, 2, 1] .empty = .ok (r.map Tagged.key) := by
    simpa [Scratch.map, Scratch.empty] using hkeys
  exact ⟨by decide, r, hr, hkeys', hok, (hstable hok).ties 1, (hstable hok).ties 2⟩

end RunMerge
