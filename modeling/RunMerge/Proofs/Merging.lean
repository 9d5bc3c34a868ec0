import RunMerge.Passes
import RunMerge.Proofs.Segments
import RunMerge.Proofs.SortedLists

/-!
# Merges of two runs

The cursor loops write the left-first merge of two segments, and they stop with a fault for one
reason only: a run or its image leaves an array. Neither fact depends on what the runs hold, so the
condition `Cursor.Fits` speaks of positions alone.

Bounds that are out of order make a run empty, and an empty run asks for nothing. Beyond that a merge
of two ranges needs what its runs and their image need, and that can be told before an element is
read: a comparison, a write and either way of copying the rest stop at a fault in the same cases.
-/

namespace RunMerge

open Slots (segment overwrite)

section Cursors

variable {α : Type}

namespace Cursor

def rest (leftEnd rightEnd : Nat) (c : Cursor α) : Nat :=
  (leftEnd - c.left) + (rightEnd - c.right)

/-- What is left of each run lies in the source, and the target has room for both. A run that is
used up asks for nothing. -/
def Fits (src : Array α) (leftEnd rightEnd : Nat) (c : Cursor α) : Prop :=
  (c.left < leftEnd → leftEnd ≤ src.size) ∧ (c.right < rightEnd → rightEnd ≤ src.size) ∧
    (0 < c.rest leftEnd rightEnd → c.out + c.rest leftEnd rightEnd ≤ c.dst.size)

theorem drainLeft_of_le {src : Array α} {stop : Nat} {c : Cursor α} (h : stop ≤ c.left) :
    c.drainLeft src stop = .ok c := by
  simp [drainLeft, Nat.sub_eq_zero_of_le h, Slots.transfer]

theorem drainRight_of_le {src : Array α} {stop : Nat} {c : Cursor α} (h : stop ≤ c.right) :
    c.drainRight src stop = .ok c := by
  simp [drainRight, Nat.sub_eq_zero_of_le h, Slots.transfer]

theorem drainLeft_eq_ok_iff {src : Array α} {stop : Nat} {c c' : Cursor α} (h : c.left < stop) :
    c.drainLeft src stop = .ok c' ↔
      (stop ≤ src.size ∧ c.out + (stop - c.left) ≤ c.dst.size) ∧
        ⟨c.left + (stop - c.left), c.right, c.out + (stop - c.left),
          overwrite c.dst c.out (segment src c.left stop)⟩ = c' := by
  have hs : c.left + (stop - c.left) = stop := by omega
  have hp : 0 < stop - c.left := by omega
  simp [drainLeft, Checked.bind_eq_ok_iff, Slots.transfer_eq_ok_iff, hs, hp, and_assoc]

theorem drainRight_eq_ok_iff {src : Array α} {stop : Nat} {c c' : Cursor α} (h : c.right < stop) :
    c.drainRight src stop = .ok c' ↔
      (stop ≤ src.size ∧ c.out + (stop - c.right) ≤ c.dst.size) ∧
        ⟨c.left, c.right + (stop - c.right), c.out + (stop - c.right),
          overwrite c.dst c.out (segment src c.right stop)⟩ = c' := by
  have hs : c.right + (stop - c.right) = stop := by omega
  have hp : 0 < stop - c.right := by omega
  simp [drainRight, Checked.bind_eq_ok_iff, Slots.transfer_eq_ok_iff, hs, hp, and_assoc]

variable [LE α] [DecidableLE α]

def merged (src : Array α) (leftEnd rightEnd : Nat) (c : Cursor α) : List α :=
  List.merge (segment src c.left leftEnd) (segment src c.right rightEnd)

def finished (src : Array α) (leftEnd rightEnd : Nat) (c : Cursor α) : Cursor α where
  left := c.left + (leftEnd - c.left)
  right := c.right + (rightEnd - c.right)
  out := c.out + c.rest leftEnd rightEnd
  dst := overwrite c.dst c.out (c.merged src leftEnd rightEnd)

/-- Takes heads until a run is used up, then drains the other. -/
def complete (src : Array α) (leftEnd rightEnd : Nat) (c : Cursor α) : Checked (Cursor α) := do
  let c ← c.mergeHeads src leftEnd rightEnd
  let c ← c.drainLeft src leftEnd
  c.drainRight src rightEnd

theorem merged_of_exhausted {src : Array α} {leftEnd rightEnd : Nat} {c : Cursor α}
    (h : ¬(c.left < leftEnd ∧ c.right < rightEnd)) :
    c.merged src leftEnd rightEnd = segment src c.left leftEnd ++ segment src c.right rightEnd := by
  rcases Nat.lt_or_ge c.left leftEnd with hl | hl
  · rw [merged, Slots.segment_of_past_le src (by omega : rightEnd ≤ c.right)]
    simp
  · rw [merged, Slots.segment_of_past_le src hl]
    simp

/-- Nothing is compared any more when a run is used up. -/
theorem complete_of_exhausted {src : Array α} {leftEnd rightEnd : Nat} {c : Cursor α}
    (h : ¬(c.left < leftEnd ∧ c.right < rightEnd)) :
    c.complete src leftEnd rightEnd =
      (c.drainLeft src leftEnd >>= fun c => c.drainRight src rightEnd) := by
  rw [complete, mergeHeads, if_neg h]
  rfl

/-- With the right run used up only the left one is drained. -/
theorem complete_eq_ok_iff_of_left {src : Array α} {leftEnd rightEnd : Nat} {c c' : Cursor α}
    (hl : c.left < leftEnd) (hr : rightEnd ≤ c.right) :
    c.complete src leftEnd rightEnd = .ok c' ↔
      c.Fits src leftEnd rightEnd ∧ c.finished src leftEnd rightEnd = c' := by
  have hfits : c.Fits src leftEnd rightEnd ↔
      leftEnd ≤ src.size ∧ c.out + (leftEnd - c.left) ≤ c.dst.size := by
    simp only [Fits, rest]
    omega
  have hfin : c.finished src leftEnd rightEnd = ⟨c.left + (leftEnd - c.left), c.right,
      c.out + (leftEnd - c.left), overwrite c.dst c.out (segment src c.left leftEnd)⟩ := by
    simp [finished, merged, rest, Slots.segment_of_past_le src hr, Nat.sub_eq_zero_of_le hr]
  have hkeep : ∀ d, c.drainLeft src leftEnd = .ok d → d.drainRight src rightEnd = .ok d := by
    intro d hd
    obtain ⟨-, rfl⟩ := (drainLeft_eq_ok_iff hl).mp hd
    exact drainRight_of_le hr
  rw [hfits, hfin, ← drainLeft_eq_ok_iff hl, complete_of_exhausted (by omega),
    Checked.bind_eq_ok_iff]
  constructor
  · rintro ⟨d, hd, hok⟩
    rw [hkeep d hd] at hok
    cases hok
    exact hd
  · intro hd
    exact ⟨c', hd, hkeep c' hd⟩

/-- With the left run used up only the right one is drained. -/
theorem complete_eq_ok_iff_of_right {src : Array α} {leftEnd rightEnd : Nat} {c c' : Cursor α}
    (hl : leftEnd ≤ c.left) (hr : c.right < rightEnd) :
    c.complete src leftEnd rightEnd = .ok c' ↔
      c.Fits src leftEnd rightEnd ∧ c.finished src leftEnd rightEnd = c' := by
  have hfits : c.Fits src leftEnd rightEnd ↔
      rightEnd ≤ src.size ∧ c.out + (rightEnd - c.right) ≤ c.dst.size := by
    simp only [Fits, rest]
    omega
  have hfin : c.finished src leftEnd rightEnd = ⟨c.left, c.right + (rightEnd - c.right),
      c.out + (rightEnd - c.right), overwrite c.dst c.out (segment src c.right rightEnd)⟩ := by
    simp [finished, merged, rest, Slots.segment_of_past_le src hl, Nat.sub_eq_zero_of_le hl]
  rw [hfits, hfin, complete_of_exhausted (by omega), drainLeft_of_le hl, Checked.ok_bind,
    drainRight_eq_ok_iff hr]

/-- When a run is used up, at most one drain has work to do. -/
theorem complete_eq_ok_iff_of_exhausted {src : Array α} {leftEnd rightEnd : Nat} {c c' : Cursor α}
    (h : ¬(c.left < leftEnd ∧ c.right < rightEnd)) :
    c.complete src leftEnd rightEnd = .ok c' ↔
      c.Fits src leftEnd rightEnd ∧ c.finished src leftEnd rightEnd = c' := by
  rcases Nat.lt_or_ge c.left leftEnd with hl | hl
  · exact complete_eq_ok_iff_of_left hl (by omega)
  · rcases Nat.lt_or_ge c.right rightEnd with hr | hr
    · exact complete_eq_ok_iff_of_right hl hr
    · have hfits : c.Fits src leftEnd rightEnd := by
        simp only [Fits, rest]
        omega
      have hfin : c.finished src leftEnd rightEnd = c := by
        simp [finished, merged, rest, Slots.segment_of_past_le src hl, Nat.sub_eq_zero_of_le hl,
          Slots.segment_of_past_le src hr, Nat.sub_eq_zero_of_le hr]
      simp [complete_of_exhausted h, drainLeft_of_le hl, drainRight_of_le hr, hfits, hfin]

def takeHead (src : Array α) (c : Cursor α) (hl : c.left < src.size) (hr : c.right < src.size) :
    Cursor α :=
  if src[c.left] ≤ src[c.right] then
    ⟨c.left + 1, c.right, c.out + 1, overwrite c.dst c.out [src[c.left]]⟩
  else
    ⟨c.left, c.right + 1, c.out + 1, overwrite c.dst c.out [src[c.right]]⟩

theorem mergeHeads_of_heads {src : Array α} {leftEnd rightEnd : Nat} {c : Cursor α}
    (h : c.left < leftEnd ∧ c.right < rightEnd) (hl : c.left < src.size) (hr : c.right < src.size)
    (ho : c.out < c.dst.size) :
    c.mergeHeads src leftEnd rightEnd = (c.takeHead src hl hr).mergeHeads src leftEnd rightEnd := by
  rw [mergeHeads, if_pos h, Slots.fetch_of_lt hl, Slots.fetch_of_lt hr, takeHead]
  simp only [Checked.ok_bind, Slots.store_of_lt ho, Slots.set_eq_overwrite ho]
  split <;> rfl

/-- A comparison that succeeds, and the write after it, were inside the arrays. -/
theorem inside_of_mergeHeads {src : Array α} {leftEnd rightEnd : Nat} {c c' : Cursor α}
    (h : c.left < leftEnd ∧ c.right < rightEnd)
    (hok : c.mergeHeads src leftEnd rightEnd = .ok c') :
    c.left < src.size ∧ c.right < src.size ∧ c.out < c.dst.size := by
  rw [mergeHeads, if_pos h] at hok
  obtain ⟨x, hx, hok⟩ := Checked.bind_eq_ok_iff.mp hok
  obtain ⟨y, hy, hok⟩ := Checked.bind_eq_ok_iff.mp hok
  refine ⟨(Slots.fetch_eq_ok_iff.mp hx).1, (Slots.fetch_eq_ok_iff.mp hy).1, ?_⟩
  split at hok
  · obtain ⟨dst, hs, -⟩ := Checked.bind_eq_ok_iff.mp hok
    exact (Slots.store_eq_ok_iff.mp hs).1
  · obtain ⟨dst, hs, -⟩ := Checked.bind_eq_ok_iff.mp hok
    exact (Slots.store_eq_ok_iff.mp hs).1

theorem takeHead_size {src : Array α} {c : Cursor α} (hl : c.left < src.size)
    (hr : c.right < src.size) (ho : c.out < c.dst.size) :
    (c.takeHead src hl hr).dst.size = c.dst.size := by
  unfold takeHead
  split <;> exact Slots.size_overwrite ho

theorem takeHead_rest {src : Array α} {leftEnd rightEnd : Nat} {c : Cursor α}
    (h : c.left < leftEnd ∧ c.right < rightEnd) (hl : c.left < src.size) (hr : c.right < src.size) :
    (c.takeHead src hl hr).rest leftEnd rightEnd + 1 = c.rest leftEnd rightEnd := by
  unfold takeHead
  split <;> simp only [rest] <;> omega

theorem takeHead_fits_iff {src : Array α} {leftEnd rightEnd : Nat} {c : Cursor α}
    (h : c.left < leftEnd ∧ c.right < rightEnd) (hl : c.left < src.size) (hr : c.right < src.size)
    (ho : c.out < c.dst.size) :
    (c.takeHead src hl hr).Fits src leftEnd rightEnd ↔ c.Fits src leftEnd rightEnd := by
  have hs : ∀ x : α, (overwrite c.dst c.out [x]).size = c.dst.size := fun x =>
    Slots.size_overwrite ho
  unfold takeHead
  split <;> simp only [Fits, rest, hs] <;> omega

theorem takeHead_finished {src : Array α} {leftEnd rightEnd : Nat} {c : Cursor α}
    (h : c.left < leftEnd ∧ c.right < rightEnd) (hl : c.left < src.size) (hr : c.right < src.size)
    (ho : c.out < c.dst.size) :
    (c.takeHead src hl hr).finished src leftEnd rightEnd = c.finished src leftEnd rightEnd := by
  have hrest := takeHead_rest h hl hr
  have hleft := Slots.segment_cons h.1 hl
  have hright := Slots.segment_cons h.2 hr
  unfold takeHead at hrest ⊢
  by_cases hle : src[c.left] ≤ src[c.right]
  · have himage : overwrite c.dst c.out (c.merged src leftEnd rightEnd) =
        overwrite (overwrite c.dst c.out [src[c.left]]) (c.out + 1)
          (List.merge (segment src (c.left + 1) leftEnd) (segment src c.right rightEnd)) := by
      rw [Slots.overwrite_cons _ _ ho, merged, hleft, hright,
        List.cons_merge_cons_pos _ _ _ (by simpa using hle)]
    rw [if_pos hle] at hrest ⊢
    rw [finished, finished, himage, ← hrest]
    simp only [merged, Cursor.mk.injEq, and_true, true_and]
    omega
  · have himage : overwrite c.dst c.out (c.merged src leftEnd rightEnd) =
        overwrite (overwrite c.dst c.out [src[c.right]]) (c.out + 1)
          (List.merge (segment src c.left leftEnd) (segment src (c.right + 1) rightEnd)) := by
      rw [Slots.overwrite_cons _ _ ho, merged, hleft, hright,
        List.cons_merge_cons_neg _ _ _ (by simpa using hle)]
    rw [if_neg hle] at hrest ⊢
    rw [finished, finished, himage, ← hrest]
    simp only [merged, Cursor.mk.injEq, and_true, true_and]
    omega

/-- Completing succeeds exactly when both runs and their image fit, whatever the elements are, and
writes the left-first merge of the runs. -/
theorem complete_eq_ok_iff {src : Array α} {leftEnd rightEnd : Nat} {c c' : Cursor α} :
    c.complete src leftEnd rightEnd = .ok c' ↔
      c.Fits src leftEnd rightEnd ∧ c.finished src leftEnd rightEnd = c' := by
  induction hn : c.rest leftEnd rightEnd generalizing c with
  | zero =>
    exact complete_eq_ok_iff_of_exhausted (by simp only [rest] at hn; omega)
  | succ n ih =>
    by_cases h : c.left < leftEnd ∧ c.right < rightEnd
    · by_cases hin : c.left < src.size ∧ c.right < src.size ∧ c.out < c.dst.size
      · obtain ⟨hl, hr, ho⟩ := hin
        have hrest := takeHead_rest h hl hr
        rw [complete, mergeHeads_of_heads h hl hr ho, ← complete, ih (by omega),
          takeHead_fits_iff h hl hr ho, takeHead_finished h hl hr ho]
      · constructor
        · intro hok
          obtain ⟨d, hd, -⟩ := Checked.bind_eq_ok_iff.mp hok
          exact absurd (inside_of_mergeHeads h hd) hin
        · rintro ⟨⟨hl, hr, ho⟩, -⟩
          have := hl h.1
          have := hr h.2
          omega
    · exact complete_eq_ok_iff_of_exhausted h

/-- The loop over the heads ends with a run used up, in an array of the same size. -/
theorem mergeHeads_exhausted {src : Array α} {leftEnd rightEnd : Nat} {c c' : Cursor α}
    (hok : c.mergeHeads src leftEnd rightEnd = .ok c') :
    ¬(c'.left < leftEnd ∧ c'.right < rightEnd) ∧ c'.dst.size = c.dst.size := by
  induction hn : c.rest leftEnd rightEnd generalizing c with
  | zero =>
    have h : ¬(c.left < leftEnd ∧ c.right < rightEnd) := by simp only [rest] at hn; omega
    rw [mergeHeads, if_neg h] at hok
    cases hok
    exact ⟨h, rfl⟩
  | succ n ih =>
    by_cases h : c.left < leftEnd ∧ c.right < rightEnd
    · obtain ⟨hl, hr, ho⟩ := inside_of_mergeHeads h hok
      have hrest := takeHead_rest h hl hr
      rw [mergeHeads_of_heads h hl hr ho] at hok
      have hend := ih hok (by omega)
      rwa [takeHead_size hl hr ho] at hend
    · rw [mergeHeads, if_neg h] at hok
      cases hok
      exact ⟨h, rfl⟩

theorem complete_of_mergeHeads {src : Array α} {leftEnd rightEnd : Nat} {c c' : Cursor α}
    (hok : c.mergeHeads src leftEnd rightEnd = .ok c') :
    c.complete src leftEnd rightEnd = c'.complete src leftEnd rightEnd := by
  have h := (mergeHeads_exhausted hok).1
  rw [complete, complete, hok, mergeHeads, if_neg h]
  rfl

/-- Moving the rest of a run by one checked copy is completing, too. -/
theorem copyRest_eq_ok_iff {src : Array α} {leftEnd rightEnd : Nat} {c : Cursor α} {out : Array α}
    (h : ¬(c.left < leftEnd ∧ c.right < rightEnd)) (hword : c.dst.size < Word.limit) :
    (if c.left < leftEnd then Slots.copyRange src c.dst c.left leftEnd c.out
      else if c.right < rightEnd then Slots.copyRange src c.dst c.right rightEnd c.out
      else pure c.dst) = .ok out ↔
      c.Fits src leftEnd rightEnd ∧ (c.finished src leftEnd rightEnd).dst = out := by
  have hfinished : (c.finished src leftEnd rightEnd).dst =
      overwrite c.dst c.out (segment src c.left leftEnd ++ segment src c.right rightEnd) := by
    rw [finished, merged_of_exhausted h]
  rw [hfinished]
  split
  · next hl =>
    rw [Slots.copyRange_eq_ok_iff hword,
      Slots.segment_of_past_le src (by omega : rightEnd ≤ c.right), List.append_nil]
    simp only [Fits, rest]
    constructor <;> rintro ⟨hfits, hout⟩ <;> exact ⟨by omega, hout⟩
  · next hl =>
    rw [Slots.segment_of_past_le src (by omega : leftEnd ≤ c.left), List.nil_append]
    split
    · next hr =>
      rw [Slots.copyRange_eq_ok_iff hword]
      simp only [Fits, rest]
      constructor <;> rintro ⟨hfits, hout⟩ <;> exact ⟨by omega, hout⟩
    · next hr =>
      rw [Slots.segment_of_past_le src (by omega : rightEnd ≤ c.right), Slots.overwrite_nil]
      simp only [Checked.pure_eq_ok, Except.ok.injEq, Fits, rest]
      exact ⟨fun hout => ⟨by omega, hout⟩, fun hout => hout.2⟩

end Cursor

variable [LE α] [DecidableLE α]

/-- Merging two ranges succeeds exactly when the runs and their image fit, and puts the left-first
merge of the runs over the target. -/
theorem mergeRanges_eq_ok_iff {src dst out : Array α} {left mid right : Nat}
    (hword : dst.size < Word.limit) :
    mergeRanges src dst left mid right = .ok out ↔
      Cursor.Fits src mid right ⟨left, mid, left, dst⟩ ∧
        overwrite dst left (List.merge (segment src left mid) (segment src mid right)) = out := by
  have hcomplete : (∃ c', Cursor.complete src mid right ⟨left, mid, left, dst⟩ = .ok c' ∧
      c'.dst = out) ↔ mergeRanges src dst left mid right = .ok out := by
    rw [mergeRanges, Checked.bind_eq_ok_iff]
    constructor
    · rintro ⟨c', hok, hout⟩
      obtain ⟨d, hd, -⟩ := Checked.bind_eq_ok_iff.mp hok
      obtain ⟨hend, hsize⟩ := Cursor.mergeHeads_exhausted hd
      rw [Cursor.complete_of_mergeHeads hd, Cursor.complete_eq_ok_iff] at hok
      refine ⟨d, hd, (Cursor.copyRest_eq_ok_iff hend (hsize ▸ hword)).mpr ⟨hok.1, ?_⟩⟩
      rw [hok.2, hout]
    · rintro ⟨d, hd, hok⟩
      obtain ⟨hend, hsize⟩ := Cursor.mergeHeads_exhausted hd
      obtain ⟨hfits, hout⟩ := (Cursor.copyRest_eq_ok_iff hend (hsize ▸ hword)).mp hok
      refine ⟨d.finished src mid right, ?_, hout⟩
      rw [Cursor.complete_of_mergeHeads hd]
      exact Cursor.complete_eq_ok_iff.mpr ⟨hfits, rfl⟩
  rw [← hcomplete]
  simp only [Cursor.complete_eq_ok_iff]
  constructor
  · rintro ⟨c', ⟨hfits, rfl⟩, hout⟩
    exact ⟨hfits, hout⟩
  · rintro ⟨hfits, hout⟩
    exact ⟨_, ⟨hfits, rfl⟩, hout⟩

end Cursors

section Ranges

variable {α : Type}

/-- The ranges of a merge do not fit: a run that is not empty ends behind the source, or both runs
together end behind the target. -/
def RangesOverrun (sourceSize targetSize left mid right : Nat) : Prop :=
  (0 < mid - left ∧ sourceSize < mid) ∨ (0 < right - mid ∧ sourceSize < right) ∨
    (0 < (mid - left) + (right - mid) ∧ targetSize < left + (mid - left) + (right - mid))

instance (sourceSize targetSize left mid right : Nat) :
    Decidable (RangesOverrun sourceSize targetSize left mid right) :=
  inferInstanceAs (Decidable (_ ∨ _ ∨ _))

theorem fits_iff_not_rangesOverrun {src dst : Array α} {left mid right : Nat} :
    Cursor.Fits src mid right ⟨left, mid, left, dst⟩ ↔
      ¬RangesOverrun src.size dst.size left mid right := by
  simp only [Cursor.Fits, Cursor.rest, RangesOverrun]
  omega

variable [LE α] [DecidableLE α]

/-- The target after a merge of ranges. The left-first merge of the two runs, which lie in the source
as a whole, stands where the left one began, and every other slot is as it was. -/
structure RangesMerged (src dst : Array α) (left mid right : Nat) (out : Array α) : Prop where
  length_left : (segment src left mid).length = mid - left
  length_right : (segment src mid right).length = right - mid
  size_eq : out.size = dst.size
  written : segment out left (left + (mid - left) + (right - mid)) =
    List.merge (segment src left mid) (segment src mid right)
  kept : ∀ i, i < left ∨ left + (mid - left) + (right - mid) ≤ i → out[i]? = dst[i]?

/-- Writing the merge of runs that fit leaves the rest of the target alone. -/
theorem rangesMerged_overwrite {src dst : Array α} {left mid right : Nat}
    (hfits : ¬RangesOverrun src.size dst.size left mid right) :
    RangesMerged src dst left mid right
      (overwrite dst left (List.merge (segment src left mid) (segment src mid right))) := by
  have hleft : (segment src left mid).length = mid - left := by
    simp only [RangesOverrun] at hfits
    rw [Slots.length_segment]
    omega
  have hright : (segment src mid right).length = right - mid := by
    simp only [RangesOverrun] at hfits
    rw [Slots.length_segment]
    omega
  have hmerge : (List.merge (segment src left mid) (segment src mid right)).length =
      (mid - left) + (right - mid) := by
    rw [List.length_merge, hleft, hright]
  rcases Nat.eq_zero_or_pos ((mid - left) + (right - mid)) with hnone | hsome
  · -- nothing is written, and the place where it would be may lie outside the target
    have hnil : List.merge (segment src left mid) (segment src mid right) = [] :=
      List.length_eq_zero_iff.mp (hmerge.trans hnone)
    rw [hnil, Slots.overwrite_nil]
    refine ⟨hleft, hright, rfl, ?_, fun i _ => rfl⟩
    rw [hnil]
    exact Slots.segment_of_past_le dst (by omega)
  · have hroom : left + (mid - left) + (right - mid) ≤ dst.size := by
      simp only [RangesOverrun] at hfits
      omega
    have hend : left + (mid - left) + (right - mid) =
        left + (List.merge (segment src left mid) (segment src mid right)).length := by
      rw [hmerge, Nat.add_assoc]
    rw [hend] at hroom
    constructor
    case length_left => exact hleft
    case length_right => exact hright
    case size_eq => exact Slots.size_overwrite hroom
    case written =>
      rw [hend]
      exact Slots.segment_overwrite_self (by omega)
    case kept =>
      intro i hi
      rw [hend] at hi
      exact Slots.getElem?_overwrite_of_outside hroom hi

/-- A merge of ranges whose bounds may be anything is a fault exactly when the ranges do not fit,
whatever the arrays hold. Otherwise it writes the left-first merge of the runs and nothing else, and
if both runs are in order, so is what it has written. -/
theorem mergeRanges_exact [Std.IsLinearPreorder α] (src dst : Array α) (left mid right : Nat)
    (hword : dst.size < Word.limit) :
    ((∃ fault, mergeRanges src dst left mid right = .error fault) ↔
        RangesOverrun src.size dst.size left mid right) ∧
      (¬RangesOverrun src.size dst.size left mid right →
        ∃ out, mergeRanges src dst left mid right = .ok out ∧
          RangesMerged src dst left mid right out ∧
          ((segment src left mid).Pairwise (· ≤ ·) → (segment src mid right).Pairwise (· ≤ ·) →
            (segment out left (left + (mid - left) + (right - mid))).Pairwise (· ≤ ·))) := by
  have hok : ∀ out, mergeRanges src dst left mid right = .ok out ↔
      ¬RangesOverrun src.size dst.size left mid right ∧
        overwrite dst left (List.merge (segment src left mid) (segment src mid right)) = out := by
    intro out
    rw [mergeRanges_eq_ok_iff hword, fits_iff_not_rangesOverrun]
  constructor
  · rw [Checked.exists_error_iff]
    simp only [hok, exists_and_left, exists_eq', and_true, Decidable.not_not]
  · intro hfits
    have hmerged := rangesMerged_overwrite hfits
    refine ⟨_, (hok _).mpr ⟨hfits, rfl⟩, hmerged, ?_⟩
    intro hleft hright
    rw [hmerged.written]
    exact hleft.merge hright

/-- Runs in the middle of an array of eight; a target that is too short for them; and bounds so far
out of order that the left run is empty and the right one moves up. -/
theorem mergeRanges_exact_eight :
    (Array.replicate 8 (0 : Int32)).size < Word.limit ∧
      (∃ out, mergeRanges (#[9, 1, 4, 7, 2, 3, 8, 9] : Array Int32) (.replicate 8 0) 1 4 7 = .ok out ∧
        segment out 1 7 = [1, 2, 3, 4, 7, 8] ∧ out[0]? = some 0 ∧ out[7]? = some 0) ∧
      (∃ fault, mergeRanges (#[9, 1, 4, 7, 2, 3, 8, 9] : Array Int32) (.replicate 6 0) 1 4 7 =
        .error fault) ∧
      ∃ out, mergeRanges (#[9, 1, 4, 7, 2, 3, 8, 9] : Array Int32) (.replicate 8 0) 5 3 6 = .ok out ∧
        segment out 5 8 = [7, 2, 3] := by
  obtain ⟨-, hmiddle⟩ := mergeRanges_exact (#[9, 1, 4, 7, 2, 3, 8, 9] : Array Int32)
    (.replicate 8 0) 1 4 7 (by decide)
  obtain ⟨hshort, -⟩ := mergeRanges_exact (#[9, 1, 4, 7, 2, 3, 8, 9] : Array Int32)
    (.replicate 6 0) 1 4 7 (by decide)
  obtain ⟨-, hmoved⟩ := mergeRanges_exact (#[9, 1, 4, 7, 2, 3, 8, 9] : Array Int32)
    (.replicate 8 0) 5 3 6 (by decide)
  obtain ⟨out, hok, hmerged, -⟩ := hmiddle (by decide)
  obtain ⟨out', hok', hmerged', -⟩ := hmoved (by decide)
  refine ⟨by decide, ⟨out, hok, ?_, ?_, ?_⟩, hshort.mpr (by decide), out', hok', ?_⟩
  · exact hmerged.written.trans (by cbv)
  · exact hmerged.kept 0 (by decide)
  · exact hmerged.kept 7 (by decide)
  · exact hmerged'.written.trans (by cbv)

end Ranges

end RunMerge
