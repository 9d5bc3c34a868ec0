import RunMerge.Proofs.BottomUpPass
import RunMerge.Proofs.Lengths
import RunMerge.Proofs.SortedLists

/-!
# The bottom-up passes sort

After the pass of width `w` every block of `2 * w` holds its own elements in order. The invariant
compares with the array before the first pass, and with its stable sort, so it carries no separate
statement about permutations. Which of the two arrays holds the runs is a matter of parity.

Between sorted runs whose boundary is in order there is nothing to merge: the merge would copy the
left run and then the right one. So the pass that copies such windows writes what the pass that
merges every window writes. Of runs that are not sorted this is false, since their boundary says
nothing about the elements behind it.
-/

namespace RunMerge

section Sorting

variable {α : Type} [LE α] [DecidableLE α]

structure BlocksSorted (start : Array α) (w : Nat) (xs : Array α) : Prop where
  size_eq : xs.size = start.size
  block_eq : ∀ t, block xs w t = (block start w t).mergeSort

theorem blocksSorted_one (xs : Array α) : BlocksSorted xs 1 xs where
  size_eq := rfl
  block_eq t := by
    have hlength := length_block_le xs 1 t
    have hsorted : (block xs 1 t).Pairwise (· ≤ ·) :=
      pairwise_of_length_le_one hlength
    exact (mergeSort_of_sorted hsorted).symm

/-- A block that holds everything is the whole array in order. -/
theorem BlocksSorted.toList_eq {start xs : Array α} {w : Nat} (h : BlocksSorted start w xs)
    (hw : start.size ≤ w) : xs.toList = start.toList.mergeSort := by
  have hwhole := h.block_eq 0
  rwa [block_whole hw, block_whole (h.size_eq ▸ hw)] at hwhole

namespace BottomUp

def sourceAfter (data : Array α) : Nat → Array α
  | 0 => data
  | p + 1 => (passed (sourceAfter data p) (2 ^ p)).toArray

/-- The other array: the buffer as it was borrowed, and from the first pass on the runs of one pass
before. -/
def targetAfter (data buffer : Array α) : Nat → Array α
  | 0 => buffer
  | p + 1 => sourceAfter data p

@[simp] theorem size_sourceAfter (data : Array α) (p : Nat) :
    (sourceAfter data p).size = data.size := by
  induction p with
  | zero => rfl
  | succ p ih => rw [sourceAfter, List.size_toArray, length_passed _ (Nat.two_pow_pos p), ih]

theorem size_targetAfter {data buffer : Array α} (h : buffer.size = data.size) (p : Nat) :
    (targetAfter data buffer p).size = data.size := by
  cases p with
  | zero => exact h
  | succ p => exact size_sourceAfter data p

def exchangeAfter (data buffer : Array α) (p : Nat) : Exchange α where
  source := sourceAfter data p
  target := targetAfter data buffer p
  turned := p % 2 == 1
  log := (List.range p).map fun e => .mergePass (2 ^ e)

theorem step_exchangeAfter {data buffer : Array α} (hdata : data.size < Word.limit)
    (hbuffer : buffer.size = data.size) (p : Nat) :
    (exchangeAfter data buffer p).step (2 ^ p) = .ok (exchangeAfter data buffer (p + 1)) := by
  have hsource : (sourceAfter data p).size < Word.limit := by rw [size_sourceAfter]; exact hdata
  have htarget : (targetAfter data buffer p).size = (sourceAfter data p).size := by
    rw [size_targetAfter hbuffer, size_sourceAfter]
  have hturned : (!(p % 2 == 1)) = ((p + 1) % 2 == 1) := by
    rcases Nat.mod_two_eq_zero_or_one p with h | h <;> simp [Nat.add_mod, h]
  simp only [Exchange.step, exchangeAfter, pass_of_size_eq hsource htarget (Nat.two_pow_pos p),
    Checked.ok_bind, Checked.pure_eq_ok, hturned, List.range_succ, List.map_append,
    List.map_singleton]
  rfl

theorem foldlM_step {data buffer : Array α} (hdata : data.size < Word.limit)
    (hbuffer : buffer.size = data.size) (p : Nat) :
    ((List.range p).map (2 ^ ·)).foldlM Exchange.step ⟨data, buffer, false, []⟩ =
      .ok (exchangeAfter data buffer p) := by
  induction p with
  | zero => rfl
  | succ p ih =>
    rw [List.range_succ, List.map_append, List.foldlM_append, ih, Checked.ok_bind,
      List.map_singleton, List.foldlM_cons, step_exchangeAfter hdata hbuffer]
    rfl

/-- The buffer at the end: the sorted array too if it was copied back from there, and the runs of
one pass before otherwise. -/
def bufferAfter (data buffer : Array α) (p : Nat) : Array α :=
  if p % 2 = 1 then sourceAfter data p else targetAfter data buffer p

theorem settle_exchangeAfter {data buffer : Array α} (hbuffer : buffer.size = data.size) (p : Nat) :
    (exchangeAfter data buffer p).settle = .ok ⟨sourceAfter data p, bufferAfter data buffer p,
      (List.range p).map fun e => .mergePass (2 ^ e)⟩ := by
  have hsize : (targetAfter data buffer p).size = (sourceAfter data p).size := by
    rw [size_targetAfter hbuffer, size_sourceAfter]
  by_cases hp : p % 2 = 1
  · simp [Exchange.settle, exchangeAfter, bufferAfter, hp, Slots.replace_of_size_eq hsize]
  · simp [Exchange.settle, exchangeAfter, bufferAfter, hp]

/-- All passes succeed, whatever the buffer holds. -/
theorem run_eq {data buffer : Array α} (hdata : data.size < Word.limit)
    (hbuffer : buffer.size = data.size) :
    run data buffer = .ok ⟨sourceAfter data (Nat.clog 2 data.size),
      bufferAfter data buffer (Nat.clog 2 data.size),
      (List.range (Nat.clog 2 data.size)).map fun e => .mergePass (2 ^ e)⟩ := by
  rw [run, widths_eq hdata, foldlM_step hdata hbuffer, Checked.ok_bind,
    settle_exchangeAfter hbuffer]

theorem size_bufferAfter {data buffer : Array α} (h : buffer.size = data.size) (p : Nat) :
    (bufferAfter data buffer p).size = data.size := by
  unfold bufferAfter
  split
  · exact size_sourceAfter data p
  · exact size_targetAfter h p

/-- After one pass or more nothing of the borrowed buffer is left. -/
theorem bufferAfter_congr (data buffer buffer' : Array α) {p : Nat} (hp : 0 < p) :
    bufferAfter data buffer p = bufferAfter data buffer' p := by
  cases p with
  | zero => omega
  | succ p => rfl

variable [Std.IsLinearPreorder α]

/-- Of sorted runs it makes no difference whether those with their boundary in order are merged. -/
theorem settleRuns_eq_merge {xs ys : List α} (hxs : xs.Pairwise (· ≤ ·))
    (hys : ys.Pairwise (· ≤ ·)) : settleRuns xs ys = List.merge xs ys := by
  unfold settleRuns
  split
  · next ho => exact (merge_eq_append hxs hys ho).symm
  · rfl

/-- A boundary in order tells nothing of runs that are not. -/
example : settleRuns ([3, 1] : List Int32) [2] = [3, 1, 2] ∧
    List.merge ([3, 1] : List Int32) [2] = [2, 3, 1] := ⟨by cbv, by cbv⟩

theorem settleRuns_mergeSort (xs ys : List α) :
    settleRuns xs.mergeSort ys.mergeSort = (xs ++ ys).mergeSort := by
  rw [settleRuns_eq_merge (pairwise_mergeSort xs) (pairwise_mergeSort ys), merge_mergeSort]

/-- A pass turns sorted blocks into sorted blocks of twice the width. -/
theorem blocksSorted_passed {start src : Array α} {width : Nat} (hwidth : 0 < width)
    (h : BlocksSorted start width src) :
    BlocksSorted start (2 * width) (passed src width).toArray where
  size_eq := by rw [List.size_toArray, length_passed src hwidth, h.size_eq]
  block_eq t := by
    rw [block_passed src hwidth, settledBlock, h.block_eq, h.block_eq, settleRuns_mergeSort,
      block_double]

theorem blocksSorted_sourceAfter (data : Array α) (p : Nat) :
    BlocksSorted data (2 ^ p) (sourceAfter data p) := by
  induction p with
  | zero => exact blocksSorted_one data
  | succ p ih =>
    rw [Nat.pow_succ, Nat.mul_comm]
    exact blocksSorted_passed (Nat.two_pow_pos p) ih

/-- After the last pass the array is the stable sort of the data. -/
theorem sourceAfter_clog (data : Array α) :
    (sourceAfter data (Nat.clog 2 data.size)).toList = data.toList.mergeSort :=
  (blocksSorted_sourceAfter data _).toList_eq (Nat.le_pow_clog Nat.one_lt_two _)

end BottomUp

end Sorting

section ShortCut

open Slots (segment overwrite)

/-- Two loops agree on their values if their steps do, for the states that an invariant admits. -/
theorem Checked.foldlM_eq_ok_congr {β γ : Type} {f g : β → γ → Checked β} (P : β → Prop)
    {xs : List γ} (hfg : ∀ x ∈ xs, ∀ b, P b → ∀ c, f b x = .ok c ↔ g b x = .ok c)
    (hP : ∀ x ∈ xs, ∀ b c, P b → f b x = .ok c → P c) {b c : β} (hb : P b) :
    xs.foldlM f b = .ok c ↔ xs.foldlM g b = .ok c := by
  induction xs generalizing b with
  | nil => rfl
  | cons x xs ih =>
    have hx := hfg x List.mem_cons_self b hb
    have htail : ∀ d, f b x = .ok d → (xs.foldlM f d = .ok c ↔ xs.foldlM g d = .ok c) := by
      intro d hd
      refine ih (fun y hy => hfg y (List.mem_cons_of_mem x hy))
        (fun y hy => hP y (List.mem_cons_of_mem x hy)) ?_
      exact hP x List.mem_cons_self b d hb hd
    rw [List.foldlM_cons, List.foldlM_cons, bind_eq_ok_iff, bind_eq_ok_iff]
    constructor
    · rintro ⟨d, hd, hrest⟩
      exact ⟨d, (hx d).mp hd, (htail d hd).mp hrest⟩
    · rintro ⟨d, hd, hrest⟩
      have hd' := (hx d).mpr hd
      exact ⟨d, hd', (htail d hd').mpr hrest⟩

namespace BottomUp

variable {α : Type} [LE α] [DecidableLE α]

theorem size_of_settleWindow {src dst out : Array α} {w : Window} (h : w.Inside src.size)
    (hword : dst.size < Word.limit) (hok : settleWindow src dst w = .ok out) :
    out.size = dst.size := by
  obtain ⟨hroom, rfl⟩ := (settleWindow_eq_ok_iff h hword).mp hok
  obtain ⟨hl, hm, hr⟩ := h
  apply Slots.size_overwrite
  rw [settled, length_settleRuns, Slots.length_segment, Slots.length_segment]
  omega

variable [Std.IsLinearPreorder α]

/-- If both runs of a window are sorted, it makes no difference whether it is merged. -/
theorem settleWindow_eq_ok_iff_mergeWindow {src dst out : Array α} {w : Window}
    (h : w.Inside src.size) (hword : dst.size < Word.limit)
    (hleft : (segment src w.left w.mid).Pairwise (· ≤ ·))
    (hright : (segment src w.mid w.right).Pairwise (· ≤ ·)) :
    settleWindow src dst w = .ok out ↔ mergeWindow src dst w = .ok out := by
  rw [settleWindow_eq_ok_iff h hword, mergeWindow_eq_ok_iff h hword, settled,
    settleRuns_eq_merge hleft hright]

/-- Between sorted runs the short cut can be left out. -/
theorem pass_eq_ok_iff_plainPass {src dst out : Array α} {width : Nat}
    (hsrc : src.size < Word.limit) (hdst : dst.size < Word.limit) (hwidth : 0 < width)
    (hruns : ∀ t, (block src width t).Pairwise (· ≤ ·)) :
    pass src dst width = .ok out ↔ plainPass src dst width = .ok out := by
  have hinside : ∀ w ∈ windows src.size width, w.Inside src.size ∧
      (segment src w.left w.mid).Pairwise (· ≤ ·) ∧
      (segment src w.mid w.right).Pairwise (· ≤ ·) := by
    intro w hw
    rw [windows_eq hsrc hwidth, List.mem_map] at hw
    obtain ⟨t, ht, rfl⟩ := hw
    rw [leftRun_windowAt, rightRun_windowAt]
    exact ⟨windowAt_inside hwidth (List.mem_range.mp ht), hruns _, hruns _⟩
  rw [pass, plainPass]
  apply Checked.foldlM_eq_ok_congr (fun d : Array α => d.size < Word.limit)
  · intro w hw d hd c
    obtain ⟨hin, hleft, hright⟩ := hinside w hw
    exact settleWindow_eq_ok_iff_mergeWindow hin hd hleft hright
  · intro w hw d c hd hok
    rw [size_of_settleWindow (hinside w hw).1 hd hok]
    exact hd
  · exact hdst

/-- If the runs of the source are sorted, a pass gives what the pass without the short cut gives. In
it each run of twice the width, the last one as short as the array makes it, is in order and holds
the elements that the source has in these positions. -/
theorem pass_eq_plainPass_of_sorted (src dst : Array α) (width : Nat) (hsrc : src.size < Word.limit)
    (hdst : dst.size < Word.limit) (hroom : src.size ≤ dst.size) (hwidth : 0 < width)
    (hruns : ∀ t, (segment src (t * width) (min ((t + 1) * width) src.size)).Pairwise (· ≤ ·)) :
    ∃ out, pass src dst width = .ok out ∧ plainPass src dst width = .ok out ∧
      ∀ t, (segment out (t * (2 * width)) (min ((t + 1) * (2 * width)) src.size)).Pairwise (· ≤ ·) ∧
        (segment out (t * (2 * width)) (min ((t + 1) * (2 * width)) src.size)).Perm
          (segment src (t * (2 * width)) (min ((t + 1) * (2 * width)) src.size)) := by
  have hblocks : ∀ t, (block src width t).Pairwise (· ≤ ·) := by
    intro t
    have hrun := hruns t
    rwa [Slots.segment_min_size] at hrun
  have hpass := (pass_eq_ok_iff hsrc hdst hwidth).mpr ⟨hroom, rfl⟩
  refine ⟨_, hpass, (pass_eq_ok_iff_plainPass hsrc hdst hwidth hblocks).mp hpass, fun t => ?_⟩
  rw [segment_of_pass hsrc hdst hwidth hpass, Slots.segment_min_size, settledBlock]
  constructor
  · rw [settleRuns_eq_merge (hblocks _) (hblocks _)]
    exact (hblocks _).merge (hblocks _)
  · refine (settleRuns_perm _ _).trans (List.Perm.of_eq ?_)
    exact block_double src width t

/-- Runs of two: a pair of them to be merged, a pair with equal elements at its boundary, and a run
of one element that is left over. -/
theorem pass_eq_plainPass_of_sorted_nine :
    (∀ t, (segment (#[2, 4, 1, 3, 5, 6, 6, 8, 7] : Array Int32) (t * 2)
        (min ((t + 1) * 2) 9)).Pairwise (· ≤ ·)) ∧
      ∃ out, pass (#[2, 4, 1, 3, 5, 6, 6, 8, 7] : Array Int32) (.replicate 10 0) 2 = .ok out ∧
        plainPass (#[2, 4, 1, 3, 5, 6, 6, 8, 7] : Array Int32) (.replicate 10 0) 2 = .ok out ∧
        (segment out 0 4).Pairwise (· ≤ ·) ∧ (segment out 0 4).Perm [2, 4, 1, 3] ∧
        (segment out 8 9).Perm [7] := by
  have hruns : ∀ t, (segment (#[2, 4, 1, 3, 5, 6, 6, 8, 7] : Array Int32) (t * 2)
      (min ((t + 1) * 2) 9)).Pairwise (· ≤ ·) := by
    intro t
    rcases Nat.lt_or_ge t 5 with ht | ht
    · revert t
      decide
    · rw [Slots.segment_of_size_le _ (by simp; omega)]
      exact List.Pairwise.nil
  obtain ⟨out, hpass, hplain, hblocks⟩ := pass_eq_plainPass_of_sorted
    (#[2, 4, 1, 3, 5, 6, 6, 8, 7] : Array Int32) (.replicate 10 0) 2 (by decide) (by decide)
    (by decide) (by decide) hruns
  exact ⟨hruns, out, hpass, hplain, (hblocks 0).1, (hblocks 0).2, (hblocks 2).2⟩

end BottomUp

end ShortCut

end RunMerge
