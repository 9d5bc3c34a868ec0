import RunMerge.Passes
import RunMerge.Proofs.Segments
import RunMerge.Proofs.Merging

/-!
# What a fixed-mid pass writes

A pass merges the runs of both halves pairwise and writes the merged runs one behind the other. Its
three cursors are never set back, so where a step starts is known from the number of steps before
it. The count at the end of the pass turns out to be a condition on sizes alone: the width divides
the left half, and the left half is no shorter than the right one.
-/

namespace RunMerge.FixedMid

open Slots (segment overwrite)

variable {α : Type} [LE α] [DecidableLE α]

def paired (src : Array α) (mid width t : Nat) : List α :=
  List.merge (segment src (t * width) ((t + 1) * width))
    (segment src (mid + t * width) (mid + (t + 1) * width))

def pairedRow (src : Array α) (mid width m : Nat) : List α :=
  (List.range m).flatMap (paired src mid width)

theorem pairedRow_succ (src : Array α) (mid width m : Nat) :
    pairedRow src mid width (m + 1) = pairedRow src mid width m ++ paired src mid width m := by
  rw [pairedRow, List.range_succ, List.flatMap_append, List.flatMap_singleton, pairedRow]

theorem length_paired {src : Array α} {mid width t : Nat} (hmid : mid ≤ src.size)
    (ht : (t + 1) * width ≤ mid) :
    (paired src mid width t).length = width + (min (mid + (t + 1) * width) src.size -
      min (mid + t * width) src.size) := by
  have hnext := Nat.add_one_mul t width
  rw [paired, List.length_merge, Slots.length_segment, Slots.length_segment]
  omega

theorem length_pairedRow {src : Array α} {mid width m : Nat} (hmid : mid ≤ src.size)
    (hm : m * width ≤ mid) :
    (pairedRow src mid width m).length = m * width + min (m * width) (src.size - mid) := by
  induction m with
  | zero => simp [pairedRow]
  | succ m ih =>
    have hnext := Nat.add_one_mul m width
    rw [pairedRow_succ, List.length_append, ih (by omega), length_paired hmid hm]
    omega

def cursorAfter (src dst : Array α) (mid width m : Nat) : Cursor α where
  left := m * width
  right := min (mid + m * width) src.size
  out := (pairedRow src mid width m).length
  dst := overwrite dst 0 (pairedRow src mid width m)

theorem mergeStep_eq (src : Array α) (mid step : Nat) (c : Cursor α) :
    mergeStep src mid step c = (do
      Word.fits (mid + step)
      c.complete src step (min (mid + step) src.size)) := rfl

/-- A step moves the cursors from where step `m` starts to where step `m + 1` does. -/
theorem finished_cursorAfter {src dst : Array α} {mid width m : Nat} (hmid : mid ≤ src.size)
    (hm : (m + 1) * width ≤ mid) (hroom : (pairedRow src mid width m).length ≤ dst.size) :
    (cursorAfter src dst mid width m).finished src ((m + 1) * width)
      (min (mid + (m + 1) * width) src.size) = cursorAfter src dst mid width (m + 1) := by
  have hnext := Nat.add_one_mul m width
  have hmerged : (cursorAfter src dst mid width m).merged src ((m + 1) * width)
      (min (mid + (m + 1) * width) src.size) = paired src mid width m := by
    simp only [Cursor.merged, cursorAfter, Slots.segment_min_size, Slots.segment_min_start]
    rfl
  have hwrite := Slots.overwrite_overwrite (pairedRow src mid width m) (paired src mid width m)
    (by omega : 0 + (pairedRow src mid width m).length ≤ dst.size)
  rw [Nat.zero_add, ← pairedRow_succ] at hwrite
  rw [Cursor.finished, hmerged]
  simp only [cursorAfter, Cursor.rest, Cursor.mk.injEq, hwrite, and_true]
  rw [length_pairedRow hmid hm, length_pairedRow hmid (by omega)]
  omega

/-- A step succeeds exactly when its last position is a word and the target has room for what has been
written after it. -/
theorem mergeStep_eq_ok_iff {src dst : Array α} {mid width m : Nat} {c : Cursor α}
    (hmid : mid ≤ src.size) (hm : (m + 1) * width ≤ mid)
    (hroom : (pairedRow src mid width m).length ≤ dst.size) :
    mergeStep src mid ((m + 1) * width) (cursorAfter src dst mid width m) = .ok c ↔
      (mid + (m + 1) * width < Word.limit ∧
          (pairedRow src mid width (m + 1)).length ≤ dst.size) ∧
        cursorAfter src dst mid width (m + 1) = c := by
  have hnext := Nat.add_one_mul m width
  have hsize : (cursorAfter src dst mid width m).dst.size = dst.size :=
    Slots.size_overwrite (by omega)
  have hfits : (cursorAfter src dst mid width m).Fits src ((m + 1) * width)
      (min (mid + (m + 1) * width) src.size) ↔
        (pairedRow src mid width (m + 1)).length ≤ dst.size := by
    rw [Cursor.Fits, hsize]
    simp only [cursorAfter, Cursor.rest]
    rw [length_pairedRow hmid (by omega)] at hroom ⊢
    rw [length_pairedRow hmid hm]
    omega
  rw [mergeStep_eq, Checked.bind_eq_ok_iff]
  simp only [Word.fits_eq_ok_iff, exists_const, Cursor.complete_eq_ok_iff, hfits,
    finished_cursorAfter hmid hm hroom, and_assoc]

section Steps

variable {src dst out : Array α} {mid width : Nat} {place : Nat → Cursor α} {good : Nat → Prop}

/-- Steps that come to an end have kept the invariant and left the cursors at the last place. The
induction is on the number of steps that are left. -/
theorem place_of_mergeSteps (hwidth : 0 < width)
    (hstep : ∀ m c, (m + 1) * width ≤ mid → good m →
      mergeStep src mid ((m + 1) * width) (place m) = .ok c → good (m + 1) ∧ place (m + 1) = c)
    (m : Nat) (hm : m ≤ mid / width) (hgood : good m) {c : Cursor α}
    (hok : mergeSteps src mid width ((m + 1) * width) (place m) = .ok c) :
    good (mid / width) ∧ place (mid / width) = c := by
  have hsteps : ∀ s, s ≤ mid / width ↔ s * width ≤ mid := fun s => Nat.le_div_iff_mul_le hwidth
  induction hd : mid / width - m generalizing m with
  | zero =>
    have hlast : mid / width = m := by omega
    have hstop : ¬(m + 1) * width ≤ mid := mt (hsteps (m + 1)).mpr (by omega)
    rw [mergeSteps, if_neg fun h => hstop h.2] at hok
    cases hok
    rw [hlast]
    exact ⟨hgood, rfl⟩
  | succ d ih =>
    have hnext : (m + 1) * width ≤ mid := (hsteps (m + 1)).mp (by omega)
    rw [mergeSteps, if_pos ⟨hwidth, hnext⟩, Checked.bind_eq_ok_iff] at hok
    obtain ⟨c', hc', hok⟩ := hok
    obtain ⟨hgood', rfl⟩ := hstep m c' hnext hgood hc'
    obtain ⟨_, -, hok⟩ := Checked.bind_eq_ok_iff.mp hok
    rw [← Nat.add_one_mul] at hok
    exact ih (m + 1) (by omega) hgood' hok (by omega)

/-- Steps that all succeed take the cursors to the last place. -/
theorem mergeSteps_eq_ok (hwidth : 0 < width)
    (hstep : ∀ m, (m + 1) * width ≤ mid → (m + 1) * width + width < Word.limit ∧
      mergeStep src mid ((m + 1) * width) (place m) = .ok (place (m + 1)))
    (m : Nat) (hm : m ≤ mid / width) :
    mergeSteps src mid width ((m + 1) * width) (place m) = .ok (place (mid / width)) := by
  have hsteps : ∀ s, s ≤ mid / width ↔ s * width ≤ mid := fun s => Nat.le_div_iff_mul_le hwidth
  induction hd : mid / width - m generalizing m with
  | zero =>
    have hlast : mid / width = m := by omega
    have hstop : ¬(m + 1) * width ≤ mid := mt (hsteps (m + 1)).mpr (by omega)
    rw [mergeSteps, if_neg fun h => hstop h.2, hlast]
    rfl
  | succ d ih =>
    have hnext : (m + 1) * width ≤ mid := (hsteps (m + 1)).mp (by omega)
    obtain ⟨hword, hc⟩ := hstep m hnext
    rw [mergeSteps, if_pos ⟨hwidth, hnext⟩, hc, Checked.ok_bind, Word.fits_of_lt hword,
      Checked.ok_bind, ← Nat.add_one_mul]
    exact ih (m + 1) (by omega) (by omega)

/-- A pass that comes to its end has the target of the last place for its outcome and has written a
slot for every element. -/
theorem place_of_pass (place : Nat → Cursor α) (hwidth : 0 < width) (hstart : place 0 = ⟨0, mid, 0, dst⟩)
    (hgood : good 0)
    (hstep : ∀ m c, (m + 1) * width ≤ mid → good m →
      mergeStep src mid ((m + 1) * width) (place m) = .ok c → good (m + 1) ∧ place (m + 1) = c)
    (hok : pass src dst mid width = .ok out) :
    good (mid / width) ∧ (place (mid / width)).out = src.size ∧ (place (mid / width)).dst = out := by
  rw [pass, ← hstart, Checked.bind_eq_ok_iff] at hok
  obtain ⟨c, hsteps, hok⟩ := hok
  have hrun : mergeSteps src mid width ((0 + 1) * width) (place 0) = .ok c := by
    rwa [Nat.zero_add, Nat.one_mul]
  obtain ⟨hlast, rfl⟩ := place_of_mergeSteps hwidth hstep 0 (Nat.zero_le _) hgood hrun
  split at hok
  · next hall =>
    cases hok
    exact ⟨hlast, hall, rfl⟩
  · cases hok

/-- A pass succeeds if all of its steps do and a slot is written for every element. -/
theorem pass_eq_ok (place : Nat → Cursor α) (hwidth : 0 < width) (hstart : place 0 = ⟨0, mid, 0, dst⟩)
    (hstep : ∀ m, (m + 1) * width ≤ mid → (m + 1) * width + width < Word.limit ∧
      mergeStep src mid ((m + 1) * width) (place m) = .ok (place (m + 1)))
    (hall : (place (mid / width)).out = src.size) :
    pass src dst mid width = .ok (place (mid / width)).dst := by
  have hsteps := mergeSteps_eq_ok hwidth hstep 0 (Nat.zero_le _)
  rw [hstart, Nat.zero_add, Nat.one_mul] at hsteps
  rw [pass, hsteps, Checked.ok_bind, if_pos hall]
  rfl

end Steps

theorem cursorAfter_zero {src : Array α} {mid : Nat} (dst : Array α) (width : Nat)
    (hmid : mid ≤ src.size) : cursorAfter src dst mid width 0 = ⟨0, mid, 0, dst⟩ := by
  simp [cursorAfter, pairedRow, Nat.min_eq_left hmid]

/-- Whether the pairs of runs make up the array is a matter of sizes. -/
theorem length_pairedRow_eq_size_iff {src : Array α} {mid : Nat} (width : Nat)
    (hmid : mid ≤ src.size) :
    (pairedRow src mid width (mid / width)).length = src.size ↔
      width ∣ mid ∧ src.size ≤ 2 * mid := by
  have hle := Nat.div_mul_le_self mid width
  rw [length_pairedRow hmid hle, Nat.dvd_iff_div_mul_eq]
  omega

/-- A pass over halves that lie in the array has written the pairs of runs, if it came to its end. -/
theorem pairedRow_of_pass {src dst out : Array α} {mid width : Nat} (hmid : mid ≤ src.size)
    (hwidth : 0 < width) (hok : pass src dst mid width = .ok out) :
    (width ∣ mid ∧ src.size ≤ 2 * mid ∧ src.size ≤ dst.size) ∧
      overwrite dst 0 (pairedRow src mid width (mid / width)) = out := by
  have hstep : ∀ m c, (m + 1) * width ≤ mid → (pairedRow src mid width m).length ≤ dst.size →
      mergeStep src mid ((m + 1) * width) (cursorAfter src dst mid width m) = .ok c →
        (pairedRow src mid width (m + 1)).length ≤ dst.size ∧
          cursorAfter src dst mid width (m + 1) = c := by
    intro m c hm hroom hc
    obtain ⟨⟨-, hroom'⟩, hc'⟩ := (mergeStep_eq_ok_iff hmid hm hroom).mp hc
    exact ⟨hroom', hc'⟩
  obtain ⟨hroom, hall, hout⟩ := place_of_pass (cursorAfter src dst mid width) hwidth
    (cursorAfter_zero dst width hmid) (by simp [pairedRow]) hstep hok
  obtain ⟨hdvd, hhalf⟩ := (length_pairedRow_eq_size_iff width hmid).mp hall
  exact ⟨⟨hdvd, hhalf, Nat.le_trans (Nat.le_of_eq hall.symm) hroom⟩, hout⟩

/-- A pass over halves that lie in the array succeeds exactly when its width divides the left half,
the right half is no longer, and the target is long enough. -/
theorem pass_eq_ok_iff {src dst out : Array α} {mid width : Nat} (hword : 2 * mid < Word.limit)
    (hmid : mid ≤ src.size) (hwidth : 0 < width) :
    pass src dst mid width = .ok out ↔
      (width ∣ mid ∧ src.size ≤ 2 * mid ∧ src.size ≤ dst.size) ∧
        overwrite dst 0 (pairedRow src mid width (mid / width)) = out := by
  refine ⟨pairedRow_of_pass hmid hwidth, ?_⟩
  rintro ⟨⟨hdvd, hhalf, hroom⟩, rfl⟩
  have hall := (length_pairedRow_eq_size_iff width hmid).mpr ⟨hdvd, hhalf⟩
  refine pass_eq_ok (cursorAfter src dst mid width) hwidth (cursorAfter_zero dst width hmid)
    (fun m hm => ?_) hall
  have hnext := Nat.add_one_mul m width
  have hshort : (pairedRow src mid width m).length ≤ dst.size := by
    rw [length_pairedRow hmid (by omega)]
    omega
  have hlong : (pairedRow src mid width (m + 1)).length ≤ dst.size := by
    rw [length_pairedRow hmid hm]
    omega
  exact ⟨by omega, (mergeStep_eq_ok_iff hmid hm hshort).mpr ⟨⟨by omega, hlong⟩, rfl⟩⟩

/-- In terms of blocks the runs with number `t` are the blocks `t` and `m + t`, if the left half has
`m` blocks. -/
theorem paired_eq_merge (src : Array α) (m width t : Nat) :
    paired src (m * width) width t = List.merge (block src width t) (block src width (m + t)) := by
  have hstart : m * width + t * width = (m + t) * width := (Nat.add_mul m t width).symm
  have hend : m * width + (t + 1) * width = (m + t + 1) * width :=
    (Nat.add_mul m (t + 1) width).symm
  rw [paired, hstart, hend]
  rfl

/-- The size of the array is twice the left half or one less, so that only the last run of the right
half can be short, by one element. -/
theorem block_pairedRow {src : Array α} {m width : Nat} (hwidth : 0 < width)
    (hlow : src.size ≤ 2 * (m * width)) (hhigh : 2 * (m * width) ≤ src.size + 1) {t : Nat}
    (ht : t < m) :
    block (pairedRow src (m * width) width m).toArray (2 * width) t =
      List.merge (block src width t) (block src width (m + t)) := by
  have hpos : 0 < m * width := Nat.mul_pos (by omega) hwidth
  have hmid : m * width ≤ src.size := by omega
  have hlength : ∀ s < m, (paired src (m * width) width s).length =
      width + (min (m * width + (s + 1) * width) src.size -
        min (m * width + s * width) src.size) := fun s hs =>
    length_paired hmid (Nat.mul_le_mul_right width hs)
  rw [← paired_eq_merge]
  refine block_of_flatMap rfl (fun s hs => ?_) (fun s hs => ?_) ht
  · have hnext := Nat.add_one_mul s width
    have hafter := Nat.add_one_mul (s + 1) width
    have hlast : (s + 1 + 1) * width ≤ m * width := Nat.mul_le_mul_right width hs
    rw [hlength s (by omega)]
    omega
  · have hnext := Nat.add_one_mul s width
    rw [hlength s hs]
    omega

end RunMerge.FixedMid
