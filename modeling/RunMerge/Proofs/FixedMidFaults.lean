import Mathlib.Algebra.Group.Nat.Defs
import RunMerge.Proofs.FixedMidPass
import RunMerge.Proofs.Lengths

/-!
# When a fixed-mid pass is a fault

Whether a pass comes to its end depends on four numbers: the two sizes, the cut and the width. If the
cut lies in the array, the width has to divide the left half and the right half may not be the longer
one. If it lies behind the array, the right half is empty and the pass copies run after run, which
ends well only if the runs of the left half end where the array does. Everything else is a fault of
one of three kinds, whatever the arrays hold.

Between arrays of one length the width has to divide the midpoint. The widths of a sort are the powers
of two below the length, and they all divide the midpoint only if it is a power of two itself. That is
what the test of bits asks of the length.
-/

namespace RunMerge

open Slots (segment overwrite)

def Checked.FaultsIn {β : Type} (P : Fault → Prop) (x : Checked β) : Prop :=
  ∀ fault, x = .error fault → P fault

inductive FixedMid.PassFault (size : Nat) : Fault → Prop where
  | slot {index slots : Nat} (h : slots ≤ index) : PassFault size (.slotOutOfRange index slots)
  | overflow : PassFault size .wordOverflow
  | unwritten {written : Nat} (h : written ≠ size) : PassFault size (.slotsUnwritten written size)

namespace Checked

variable {β γ : Type} {P : Fault → Prop}

theorem faultsIn_ok (x : β) : FaultsIn P (.ok x) := by
  intro fault h
  cases h

theorem faultsIn_error {fault : Fault} (h : P fault) : FaultsIn P (.error fault : Checked β) := by
  intro fault' h'
  cases h'
  exact h

theorem FaultsIn.bind {x : Checked β} {f : β → Checked γ} (hx : FaultsIn P x)
    (hf : ∀ b, FaultsIn P (f b)) : FaultsIn P (x >>= f) := by
  cases x with
  | error fault =>
    intro fault' h
    cases h
    exact hx fault rfl
  | ok b => exact hf b

end Checked

namespace FixedMid

variable {α : Type} {size : Nat}

theorem fits_faultsIn (n : Nat) : (Word.fits n).FaultsIn (PassFault size) := by
  unfold Word.fits
  split
  · exact Checked.faultsIn_ok ()
  · exact Checked.faultsIn_error .overflow

theorem fetch_faultsIn (xs : Array α) (i : Nat) : (Slots.fetch xs i).FaultsIn (PassFault size) := by
  rcases Nat.lt_or_ge i xs.size with hi | hi
  · rw [Slots.fetch_of_lt hi]
    exact Checked.faultsIn_ok _
  · rw [Slots.fetch_of_le hi]
    exact Checked.faultsIn_error (.slot hi)

theorem store_faultsIn (xs : Array α) (i : Nat) (x : α) :
    (Slots.store xs i x).FaultsIn (PassFault size) := by
  rcases Nat.lt_or_ge i xs.size with hi | hi
  · rw [Slots.store_of_lt hi]
    exact Checked.faultsIn_ok _
  · rw [Slots.store_of_le hi]
    exact Checked.faultsIn_error (.slot hi)

theorem transfer_faultsIn (src : Array α) (count i : Nat) (dst : Array α) (k : Nat) :
    (Slots.transfer src count i dst k).FaultsIn (PassFault size) := by
  induction count generalizing i dst k with
  | zero => exact Checked.faultsIn_ok dst
  | succ count ih =>
    apply (fetch_faultsIn src i).bind
    intro x
    apply (store_faultsIn dst k x).bind
    intro dst'
    exact ih (i + 1) dst' (k + 1)

theorem drainLeft_faultsIn (src : Array α) (stop : Nat) (c : Cursor α) :
    (c.drainLeft src stop).FaultsIn (PassFault size) := by
  apply (transfer_faultsIn src (stop - c.left) c.left c.dst c.out).bind
  intro dst
  exact Checked.faultsIn_ok _

theorem drainRight_faultsIn (src : Array α) (stop : Nat) (c : Cursor α) :
    (c.drainRight src stop).FaultsIn (PassFault size) := by
  apply (transfer_faultsIn src (stop - c.right) c.right c.dst c.out).bind
  intro dst
  exact Checked.faultsIn_ok _

variable [LE α] [DecidableLE α]

theorem mergeHeads_faultsIn (src : Array α) (leftEnd rightEnd : Nat) (c : Cursor α) :
    (c.mergeHeads src leftEnd rightEnd).FaultsIn (PassFault size) := by
  induction hn : c.rest leftEnd rightEnd generalizing c with
  | zero =>
    have hend : ¬(c.left < leftEnd ∧ c.right < rightEnd) := by
      simp only [Cursor.rest] at hn
      omega
    rw [Cursor.mergeHeads, if_neg hend]
    exact Checked.faultsIn_ok c
  | succ n ih =>
    rw [Cursor.mergeHeads]
    split
    · next hheads =>
      apply (fetch_faultsIn src c.left).bind
      intro x
      apply (fetch_faultsIn src c.right).bind
      intro y
      -- either head that is taken leaves one element less to move
      split
      · apply (store_faultsIn c.dst c.out x).bind
        intro dst
        apply ih
        simp only [Cursor.rest] at hn ⊢
        omega
      · apply (store_faultsIn c.dst c.out y).bind
        intro dst
        apply ih
        simp only [Cursor.rest] at hn ⊢
        omega
    · exact Checked.faultsIn_ok c

theorem mergeStep_faultsIn (src : Array α) (mid step : Nat) (c : Cursor α) :
    (mergeStep src mid step c).FaultsIn (PassFault size) := by
  apply (fits_faultsIn (mid + step)).bind
  intro _
  apply (mergeHeads_faultsIn src step (min (mid + step) src.size) c).bind
  intro c
  apply (drainLeft_faultsIn src step c).bind
  intro c
  exact drainRight_faultsIn src (min (mid + step) src.size) c

/-- The induction is on what the steps have left of the left half. -/
theorem mergeSteps_faultsIn (src : Array α) (mid width step : Nat) (c : Cursor α) :
    (mergeSteps src mid width step c).FaultsIn (PassFault size) := by
  induction hn : mid + 1 - step using Nat.strongRecOn generalizing step c with
  | ind n ih =>
    rw [mergeSteps]
    split
    · next hstep =>
      apply (mergeStep_faultsIn src mid step c).bind
      intro c
      apply (fits_faultsIn (step + width)).bind
      intro _
      exact ih (mid + 1 - (step + width)) (by omega) (step + width) c rfl
    · exact Checked.faultsIn_ok c

theorem pass_faultsIn (src dst : Array α) (mid width : Nat) :
    (pass src dst mid width).FaultsIn (PassFault src.size) := by
  apply (mergeSteps_faultsIn src mid width width ⟨0, mid, 0, dst⟩).bind
  intro c
  split
  · exact Checked.faultsIn_ok c.dst
  · next hcount => exact Checked.faultsIn_error (.unwritten hcount)

/-- The cursors after `p` elements have been copied, with a right half that is empty. -/
def copiedUpTo (src dst : Array α) (mid p : Nat) : Cursor α where
  left := p
  right := mid
  out := p
  dst := overwrite dst 0 (segment src 0 p)

/-- A step copies the next run, if positions stay words and both arrays reach to its end. -/
theorem mergeStep_eq_ok_iff_of_beyond {src dst : Array α} {mid p step : Nat} {c : Cursor α}
    (hmid : src.size < mid) (hsrc : p ≤ src.size) (hdst : p ≤ dst.size) (hstep : p < step) :
    mergeStep src mid step (copiedUpTo src dst mid p) = .ok c ↔
      (mid + step < Word.limit ∧ step ≤ src.size ∧ step ≤ dst.size) ∧
        copiedUpTo src dst mid step = c := by
  have hlength : 0 + (segment src 0 p).length = p := by
    rw [Slots.length_segment]
    omega
  have hsize : (copiedUpTo src dst mid p).dst.size = dst.size := Slots.size_overwrite (by omega)
  have hright : min (mid + step) src.size ≤ mid := by omega
  have hfits : (copiedUpTo src dst mid p).Fits src step (min (mid + step) src.size) ↔
      step ≤ src.size ∧ step ≤ dst.size := by
    rw [Cursor.Fits, hsize]
    simp only [copiedUpTo, Cursor.rest]
    omega
  have hfinished : (copiedUpTo src dst mid p).finished src step (min (mid + step) src.size) =
      copiedUpTo src dst mid step := by
    have hwrite := Slots.overwrite_overwrite (segment src 0 p) (segment src p step)
      (by omega : 0 + (segment src 0 p).length ≤ dst.size)
    rw [hlength, Slots.segment_append src (Nat.zero_le p) (Nat.le_of_lt hstep)] at hwrite
    have hmerged : (copiedUpTo src dst mid p).merged src step (min (mid + step) src.size) =
        segment src p step := by
      simp [Cursor.merged, copiedUpTo, Slots.segment_of_past_le src hright]
    rw [Cursor.finished, hmerged]
    simp only [copiedUpTo, Cursor.rest, hwrite, Cursor.mk.injEq, and_true]
    omega
  rw [mergeStep_eq, Checked.bind_eq_ok_iff]
  simp only [Word.fits_eq_ok_iff, exists_const, Cursor.complete_eq_ok_iff, hfits, hfinished,
    and_assoc]

omit [LE α] [DecidableLE α] in
theorem copiedUpTo_zero (src dst : Array α) (mid : Nat) :
    copiedUpTo src dst mid 0 = ⟨0, mid, 0, dst⟩ := by
  simp [copiedUpTo, Slots.segment_of_past_le]

/-- A pass with a cut behind the array has copied it, if it came to its end. -/
theorem copied_of_pass {src dst out : Array α} {mid width : Nat} (hmid : src.size < mid)
    (hwidth : 0 < width) (hok : pass src dst mid width = .ok out) :
    (mid / width * width = src.size ∧ src.size ≤ dst.size) ∧ overwrite dst 0 src.toList = out := by
  have hstep : ∀ m c, (m + 1) * width ≤ mid → m * width ≤ src.size ∧ m * width ≤ dst.size →
      mergeStep src mid ((m + 1) * width) (copiedUpTo src dst mid (m * width)) = .ok c →
        ((m + 1) * width ≤ src.size ∧ (m + 1) * width ≤ dst.size) ∧
          copiedUpTo src dst mid ((m + 1) * width) = c := by
    rintro m c - ⟨hsrc, hdst⟩ hc
    have hnext := Nat.add_one_mul m width
    obtain ⟨⟨-, hroom⟩, hc'⟩ :=
      (mergeStep_eq_ok_iff_of_beyond hmid hsrc hdst (by omega)).mp hc
    exact ⟨hroom, hc'⟩
  have hstart : copiedUpTo src dst mid (0 * width) = ⟨0, mid, 0, dst⟩ := by
    rw [Nat.zero_mul, copiedUpTo_zero]
  obtain ⟨⟨-, hroom⟩, hall, hout⟩ := place_of_pass (fun m => copiedUpTo src dst mid (m * width)) hwidth
    hstart (by simp) hstep hok
  have hend : mid / width * width = src.size := hall
  rw [hend] at hroom hout
  rw [copiedUpTo, Slots.segment_all (Nat.le_refl _)] at hout
  exact ⟨⟨hend, hroom⟩, hout⟩

/-- A pass with a cut behind the array succeeds exactly when the whole runs before the cut make up
the array and the target is long enough. Then it copies the array. That the last run ends in the array
bounds the width and the cut, so no position leaves its word. -/
theorem pass_eq_ok_iff_of_beyond {src dst out : Array α} {mid width : Nat}
    (hlen : src.size < 2 ^ 61) (hmid : src.size < mid) (hwidth : 0 < width) :
    pass src dst mid width = .ok out ↔
      (mid / width * width = src.size ∧ src.size ≤ dst.size) ∧
        overwrite dst 0 src.toList = out := by
  refine ⟨copied_of_pass hmid hwidth, ?_⟩
  rintro ⟨⟨hall, hroom⟩, rfl⟩
  have hstart : copiedUpTo src dst mid (0 * width) = ⟨0, mid, 0, dst⟩ := by
    rw [Nat.zero_mul, copiedUpTo_zero]
  have hpass : pass src dst mid width = .ok (copiedUpTo src dst mid (mid / width * width)).dst := by
    refine pass_eq_ok (fun m => copiedUpTo src dst mid (m * width)) hwidth hstart (fun m hm => ?_) hall
    have hnext := Nat.add_one_mul m width
    have hle : (m + 1) * width ≤ mid / width * width :=
      Nat.mul_le_mul_right _ ((Nat.le_div_iff_mul_le hwidth).mpr hm)
    have hcut : mid < mid / width * width + width := Nat.lt_div_mul_add hwidth
    have hlimit : 2 ^ 61 * 8 = Word.limit := rfl
    exact ⟨by omega, (mergeStep_eq_ok_iff_of_beyond hmid (by omega) (by omega) (by omega)).mpr
      ⟨⟨by omega, by omega, by omega⟩, rfl⟩⟩
  rw [hpass, hall, copiedUpTo, Slots.segment_all (Nat.le_refl _)]

/-- A pass comes to its end exactly when the target is long enough and the runs before the cut make
up both halves, or the array if it lies before the cut. Every other pass stops at a slot outside an
array, at a position that no word holds, or at its count of written slots. No element has a say in
it. -/
theorem pass_ok_iff_bounds (src dst : Array α) (mid width : Nat) (hlen : src.size < 2 ^ 61)
    (hwidth : 0 < width) :
    ((∃ out, pass src dst mid width = .ok out) ↔
        src.size ≤ dst.size ∧
          ((mid ≤ src.size ∧ width ∣ mid ∧ src.size ≤ 2 * mid) ∨
            (src.size < mid ∧ mid / width * width = src.size))) ∧
      ∀ fault, pass src dst mid width = .error fault → PassFault src.size fault := by
  refine ⟨?_, pass_faultsIn src dst mid width⟩
  rcases Nat.lt_or_ge src.size mid with hmid | hmid
  · simp only [pass_eq_ok_iff_of_beyond hlen hmid hwidth, exists_and_left, exists_eq', and_true,
      hmid, true_and, Nat.not_le.mpr hmid, false_and, false_or]
    exact and_comm
  · have hword : 2 * mid < Word.limit := by
      have hlimit : 2 ^ 61 * 8 = Word.limit := rfl
      omega
    simp only [pass_eq_ok_iff hword hmid hwidth, exists_and_left, exists_eq', and_true, hmid,
      true_and, Nat.not_lt.mpr hmid, false_and, or_false]
    constructor
    · rintro ⟨hdvd, hhalf, hroom⟩
      exact ⟨hroom, hdvd, hhalf⟩
    · rintro ⟨hroom, hdvd, hhalf⟩
      exact ⟨hdvd, hhalf, hroom⟩

/-- Three elements, with the cut at two, with a cut behind the array, and with a cut that a run of
two elements misses. -/
theorem pass_ok_iff_bounds_three :
    ((#[3, 1, 2] : Array Int32).size < 2 ^ 61 ∧ 0 < 1 ∧ 0 < 3 ∧ 0 < 2) ∧
      (∃ out, pass (#[3, 1, 2] : Array Int32) (.replicate 4 0) 2 1 = .ok out) ∧
      (∃ out, pass (#[3, 1, 2] : Array Int32) (.replicate 4 0) 5 3 = .ok out) ∧
      ∃ fault, pass (#[3, 1, 2] : Array Int32) (.replicate 4 0) 3 2 = .error fault ∧
        PassFault 3 fault := by
  have hinside := (pass_ok_iff_bounds (#[3, 1, 2] : Array Int32) (.replicate 4 0) 2 1 (by decide)
    (by decide)).1
  have hbeyond := (pass_ok_iff_bounds (#[3, 1, 2] : Array Int32) (.replicate 4 0) 5 3 (by decide)
    (by decide)).1
  obtain ⟨hmissed, hkinds⟩ := pass_ok_iff_bounds (#[3, 1, 2] : Array Int32) (.replicate 4 0) 3 2
    (by decide) (by decide)
  obtain ⟨fault, hfault⟩ := Checked.exists_error_iff.mpr (mt hmissed.mp (by decide))
  exact ⟨by decide, hinside.mpr (by decide), hbeyond.mpr (by decide), fault, hfault,
    hkinds fault hfault⟩

/-- The widest power of two that fits in the left half. A length that is refused fails on it. -/
def widest (n : Nat) : Nat := 2 ^ Nat.log 2 (midpoint n)

theorem widest_mem_widths {n : Nat} (h2 : 2 ≤ n) (hn : n < Word.limit) : widest n ∈ widths n := by
  have hpos : midpoint n ≠ 0 := by rw [midpoint]; omega
  have hle := Nat.pow_log_le_self 2 hpos
  have hmid : midpoint n < n := by rw [midpoint]; omega
  exact (mem_widths hn).mpr ⟨_, rfl, Nat.lt_of_le_of_lt hle hmid⟩

/-- Less than two of the widest runs fit in the left half, so it has room for one and a rest. -/
theorem midpoint_eq_widest {n : Nat} (h2 : 2 ≤ n) (hdvd : widest n ∣ midpoint n) :
    midpoint n = widest n := by
  have hpos : 0 < midpoint n := by rw [midpoint]; omega
  have hhigh : midpoint n < widest n * 2 := by
    rw [widest, ← Nat.pow_succ]
    exact Nat.lt_pow_succ_log_self Nat.one_lt_two (midpoint n)
  obtain ⟨c, hc⟩ := hdvd
  have hlt : c < 2 := by
    rw [hc] at hhigh
    exact Nat.lt_of_mul_lt_mul_left hhigh
  cases c with
  | zero => omega
  | succ c =>
    have hzero : c = 0 := by omega
    rw [hc, hzero, Nat.mul_one]

/-- If the midpoint is a power of two, so is every width below the length, and no larger. -/
theorem dvd_midpoint {n k e : Nat} (hmid : midpoint n = 2 ^ k) (he : 2 ^ e < n) :
    2 ^ e ∣ midpoint n := by
  have hdouble := Nat.pow_succ 2 k
  have hlt : 2 ^ e < 2 ^ (k + 1) := by
    rw [midpoint] at hmid
    omega
  have hle : e < k + 1 := (Nat.pow_lt_pow_iff_right Nat.one_lt_two).mp hlt
  rw [hmid]
  exact Nat.pow_dvd_pow 2 (Nat.le_of_lt_succ hle)

/-- All widths of a sort divide the midpoint just for the lengths that are taken. -/
theorem widths_dvd_iff_supports {n : Nat} (h2 : 2 ≤ n) (hn : n < Word.limit) :
    (∀ w ∈ widths n, w ∣ midpoint n) ↔ Strategy.supports .fixedMid n = true := by
  rw [supports_iff_midpoint hn h2]
  constructor
  · intro hall
    have hdvd := hall (widest n) (widest_mem_widths h2 hn)
    exact ⟨Nat.log 2 (midpoint n), midpoint_eq_widest h2 hdvd⟩
  · rintro ⟨k, hmid⟩ w hw
    obtain ⟨e, rfl, he⟩ := (mem_widths hn).mp hw
    exact dvd_midpoint hmid he

theorem not_widest_dvd {n : Nat} (h2 : 2 ≤ n) (hn : n < Word.limit)
    (hlen : Strategy.supports .fixedMid n = false) : ¬widest n ∣ midpoint n := by
  intro hdvd
  have hmid : ∃ k, midpoint n = 2 ^ k := ⟨_, midpoint_eq_widest h2 hdvd⟩
  rw [← supports_iff_midpoint hn h2, hlen] at hmid
  cases hmid

/-- Between arrays of one length only the width decides, never an element. -/
theorem pass_ok_iff_dvd {n w : Nat} (hn : n < Word.largest) (hw : w ∈ widths n)
    {src dst : Array α} (hsrc : src.size = n) (hdst : dst.size = n) :
    (∃ out, pass src dst (midpoint n) w = .ok out) ↔ w ∣ midpoint n := by
  have hlimit := Word.lt_limit_of_lt_largest hn
  obtain ⟨e, rfl, he⟩ := (mem_widths hlimit).mp hw
  have hwidth := Nat.two_pow_pos e
  have hbounds : 2 * midpoint n ≤ n + 1 ∧ n ≤ 2 * midpoint n ∧ midpoint n ≤ n := by
    rw [midpoint]
    omega
  have hword : 2 * midpoint n < Word.limit := by rw [Word.largest] at hn; omega
  have hmid : midpoint n ≤ src.size := by omega
  simp only [pass_eq_ok_iff hword hmid hwidth]
  constructor
  · rintro ⟨out, ⟨hdvd, -, -⟩, -⟩
    exact hdvd
  · intro hdvd
    exact ⟨_, ⟨hdvd, by omega, by omega⟩, rfl⟩

/-- The lengths that are taken are those on which no pass of a sort is a fault. For every other
length from two on there is a width whose pass is a fault whatever the arrays hold. All arrays in
memory are shorter than the bound on the length. -/
theorem supports_iff_passes_ok (n : Nat) (h2 : 2 ≤ n) (hn : n < Word.largest) :
    (∀ w, w ∈ widths n ↔ ∃ e, 2 ^ e = w ∧ w < n) ∧
      (∀ src dst : Array α, src.size = n → dst.size = n →
        ((∀ w ∈ widths n, ∃ out, pass src dst (midpoint n) w = .ok out) ↔
          Strategy.supports .fixedMid n = true)) ∧
      (Strategy.supports .fixedMid n = false →
        ∃ w ∈ widths n, ∀ src dst : Array α, src.size = n → dst.size = n →
          ∃ fault, pass src dst (midpoint n) w = .error fault) := by
  have hlimit := Word.lt_limit_of_lt_largest hn
  refine ⟨fun w => mem_widths hlimit, ?_, ?_⟩
  · intro src dst hsrc hdst
    rw [← widths_dvd_iff_supports h2 hlimit]
    exact forall₂_congr fun w hw => pass_ok_iff_dvd hn hw hsrc hdst
  · intro hlen
    have hmem := widest_mem_widths h2 hlimit
    refine ⟨widest n, hmem, fun src dst hsrc hdst => ?_⟩
    cases hpass : pass src dst (midpoint n) (widest n) with
    | error fault => exact ⟨fault, rfl⟩
    | ok out =>
      have hdvd := (pass_ok_iff_dvd hn hmem hsrc hdst).mp ⟨out, hpass⟩
      exact absurd hdvd (not_widest_dvd h2 hlimit hlen)

/-- Six elements are refused, and seven are taken. -/
theorem supports_iff_passes_ok_six_seven :
    (∃ w ∈ widths 6, ∀ src dst : Array Int32, src.size = 6 → dst.size = 6 →
        ∃ fault, pass src dst (midpoint 6) w = .error fault) ∧
      ∀ w ∈ widths 7, ∃ out, pass (#[7, 6, 5, 4, 3, 2, 1] : Array Int32) #[0, 0, 0, 0, 0, 0, 0]
        (midpoint 7) w = .ok out :=
  ⟨(supports_iff_passes_ok 6 (by decide) (by decide)).2.2 (by decide),
    ((supports_iff_passes_ok 7 (by decide) (by decide)).2.1 _ _ rfl rfl).mpr (by decide)⟩

end FixedMid

end RunMerge
