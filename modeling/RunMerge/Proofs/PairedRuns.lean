import Mathlib.Data.List.Perm.Basic
import RunMerge.Proofs.FixedMidFaults
import RunMerge.Proofs.SortedLists

/-!
# What a fixed-mid pass leaves behind

A pass that comes to its end has written one piece for each pair of runs, in the order of the runs: the
left-first merge of a run of the left half with the run as far behind the cut, of which the end of the
array may leave little or nothing. The cursors are never set back, so a piece begins behind as many
elements as both halves have before its runs. All pieces together hold the elements of the array, each
as often as before, though elements of the two halves now alternate. Nothing here bounds the sizes, for
a pass that leaves the words has not come to its end.
-/

namespace RunMerge.FixedMid

open Slots (segment overwrite)

section Definitions

variable {α : Type}

def leftRun (src : Array α) (width t : Nat) : List α :=
  segment src (t * width) ((t + 1) * width)

/-- The run with number `t` behind the cut, as far as the array has it. -/
def rightRun (src : Array α) (mid width t : Nat) : List α :=
  segment src (min (mid + t * width) src.size) (min (mid + (t + 1) * width) src.size)

/-- Where the piece with number `t` begins: behind what the runs before it hold. -/
def pieceStart (size mid width t : Nat) : Nat :=
  t * width + (min (mid + t * width) size - mid)

variable [LE α] [DecidableLE α]

/-- The pieces of a pass over halves that lie in the array. They make up all that was written, each
stands where both of its runs start, and a piece is in order if its runs are. -/
structure PiecesWritten (src out : Array α) (mid width : Nat) : Prop where
  length_leftRun : ∀ t < mid / width, (leftRun src width t).length = width
  row : segment out 0 src.size =
    (List.range (mid / width)).flatMap fun t =>
      List.merge (leftRun src width t) (rightRun src mid width t)
  piece : ∀ t < mid / width,
    segment out (pieceStart src.size mid width t) (pieceStart src.size mid width (t + 1)) =
      List.merge (leftRun src width t) (rightRun src mid width t)
  sorted : ∀ t < mid / width, (leftRun src width t).Pairwise (· ≤ ·) →
    (rightRun src mid width t).Pairwise (· ≤ ·) →
      (segment out (pieceStart src.size mid width t)
        (pieceStart src.size mid width (t + 1))).Pairwise (· ≤ ·)

end Definitions

variable {α : Type}

theorem rightRun_eq (src : Array α) (mid width t : Nat) :
    rightRun src mid width t = segment src (mid + t * width) (mid + (t + 1) * width) := by
  rw [rightRun, Slots.segment_min_size, Slots.segment_min_start]

/-- The runs of both halves, one behind the other, are the array. -/
theorem flatMap_runs {src : Array α} {mid width : Nat} (hdvd : width ∣ mid)
    (hhalf : src.size ≤ 2 * mid) :
    (List.range (mid / width)).flatMap (leftRun src width) ++
      (List.range (mid / width)).flatMap (rightRun src mid width) = src.toList := by
  have hleft : (List.range (mid / width)).flatMap (leftRun src width) = segment src 0 mid := by
    have h := flatMap_block src width (mid / width)
    rwa [Nat.div_mul_cancel hdvd] at h
  have hright : (List.range (mid / width)).flatMap (rightRun src mid width) =
      segment src mid (mid + mid) := by
    have h := flatMap_segment src mid width (mid / width)
    rw [Nat.div_mul_cancel hdvd] at h
    rw [← h]
    exact List.flatMap_congr fun t _ => rightRun_eq src mid width t
  rw [hleft, hright, Slots.segment_append src (Nat.zero_le mid) (by omega),
    Slots.segment_all (by omega)]

variable [LE α] [DecidableLE α]

theorem paired_eq_merge_runs (src : Array α) (mid width t : Nat) :
    paired src mid width t = List.merge (leftRun src width t) (rightRun src mid width t) := by
  rw [rightRun_eq]
  rfl

theorem length_pairedRow_eq_pieceStart {src : Array α} {mid width m : Nat} (hmid : mid ≤ src.size)
    (hm : m * width ≤ mid) :
    (pairedRow src mid width m).length = pieceStart src.size mid width m := by
  rw [length_pairedRow hmid hm, pieceStart]
  omega

/-- Merging runs pairwise moves elements about and loses none. -/
theorem pairedRow_perm {src : Array α} {mid width : Nat} (hdvd : width ∣ mid)
    (hhalf : src.size ≤ 2 * mid) : (pairedRow src mid width (mid / width)).Perm src.toList := by
  have hmerge : (pairedRow src mid width (mid / width)).Perm
      ((List.range (mid / width)).flatMap fun t => leftRun src width t ++ rightRun src mid width t) := by
    apply List.Perm.flatMap_left
    intro t _
    rw [paired_eq_merge_runs]
    exact List.merge_perm_append _
  have hsplit := List.flatMap_append_perm (List.range (mid / width)) (leftRun src width)
    (rightRun src mid width)
  rw [flatMap_runs hdvd hhalf] at hsplit
  exact hmerge.trans hsplit.symm

/-- A row of pieces is read piece by piece. -/
theorem segment_pairedRow {src : Array α} {mid width m t : Nat} (hmid : mid ≤ src.size)
    (hm : m * width ≤ mid) (ht : t < m) :
    segment (pairedRow src mid width m).toArray (pieceStart src.size mid width t)
        (pieceStart src.size mid width (t + 1)) = paired src mid width t := by
  obtain ⟨rest, rfl⟩ : ∃ rest, m = t + 1 + rest := ⟨m - (t + 1), by omega⟩
  have hnext : (t + 1) * width ≤ mid :=
    Nat.le_trans (Nat.mul_le_mul_right width (by omega)) hm
  have hbefore : t * width ≤ mid := Nat.le_trans (Nat.mul_le_mul_right width (by omega)) hnext
  have hrow : (pairedRow src mid width (t + 1 + rest)).toArray.toList =
      pairedRow src mid width t ++ paired src mid width t ++
        ((List.range rest).map (t + 1 + ·)).flatMap (paired src mid width) := by
    rw [← pairedRow_succ, pairedRow, List.range_add, List.flatMap_append]
    rfl
  have hend : pieceStart src.size mid width (t + 1) =
      (pairedRow src mid width t).length + (paired src mid width t).length := by
    rw [← length_pairedRow_eq_pieceStart hmid hnext, pairedRow_succ, List.length_append]
  rw [hend, ← length_pairedRow_eq_pieceStart hmid hbefore]
  exact Slots.segment_of_toList_eq hrow

/-- The pieces of a pass, said of what it has written. -/
theorem piecesWritten_of_pass [Std.IsLinearPreorder α] {src dst out : Array α} {mid width : Nat}
    (hmid : mid ≤ src.size) (hwidth : 0 < width) (hok : pass src dst mid width = .ok out) :
    PiecesWritten src out mid width := by
  obtain ⟨⟨hdvd, hhalf, -⟩, rfl⟩ := pairedRow_of_pass hmid hwidth hok
  have hcut : mid / width * width ≤ mid := Nat.div_mul_le_self mid width
  have hall := (length_pairedRow_eq_size_iff width hmid).mpr ⟨hdvd, hhalf⟩
  have hrun : ∀ t < mid / width, (t + 1) * width ≤ mid := fun t ht =>
    (Nat.le_div_iff_mul_le hwidth).mp ht
  have hpiece : ∀ t < mid / width,
      segment (overwrite dst 0 (pairedRow src mid width (mid / width)))
          (pieceStart src.size mid width t) (pieceStart src.size mid width (t + 1)) =
        List.merge (leftRun src width t) (rightRun src mid width t) := by
    intro t ht
    have hend : pieceStart src.size mid width (t + 1) ≤ 0 + (pairedRow src mid width
        (mid / width)).length := by
      have hstart := hrun t ht
      rw [hall, pieceStart]
      omega
    rw [Slots.segment_overwrite (Nat.zero_le _) (Nat.zero_le _) hend, Nat.sub_zero, Nat.sub_zero,
      segment_pairedRow hmid hcut ht, paired_eq_merge_runs]
  constructor
  case length_leftRun =>
    intro t ht
    exact length_block_of_full (Nat.le_trans (hrun t ht) hmid)
  case row =>
    rw [← hall, ← Nat.zero_add (pairedRow src mid width (mid / width)).length,
      Slots.segment_overwrite_self (Nat.zero_le _)]
    exact List.flatMap_congr fun t _ => paired_eq_merge_runs src mid width t
  case piece => exact hpiece
  case sorted =>
    intro t ht hleft hright
    rw [hpiece t ht]
    exact hleft.merge hright

/-- What was written is a rearrangement of the array, wherever the cut lies. -/
theorem written_perm_of_pass {src dst out : Array α} {mid width : Nat} (hwidth : 0 < width)
    (hok : pass src dst mid width = .ok out) :
    ∃ written : List α, written.Perm src.toList ∧ src.size ≤ dst.size ∧
      overwrite dst 0 written = out := by
  rcases Nat.lt_or_ge src.size mid with hmid | hmid
  · obtain ⟨⟨-, hroom⟩, hout⟩ := copied_of_pass hmid hwidth hok
    exact ⟨src.toList, List.Perm.refl _, hroom, hout⟩
  · obtain ⟨⟨hdvd, hhalf, hroom⟩, hout⟩ := pairedRow_of_pass hmid hwidth hok
    exact ⟨_, pairedRow_perm hdvd hhalf, hroom, hout⟩

/-- A pass that comes to its end has written the merged pairs of runs, runs in order or not, or the array
as it was if the cut lies behind it. Either way it has written the elements of the array and touched no
slot behind them. -/
theorem pass_writes_pieces [Std.IsLinearPreorder α] (src dst out : Array α) (mid width : Nat)
    (hwidth : 0 < width) (hok : pass src dst mid width = .ok out) :
    (mid ≤ src.size → PiecesWritten src out mid width) ∧
      (src.size < mid → segment out 0 src.size = src.toList) ∧
      (segment out 0 src.size).Perm src.toList ∧ src.size ≤ out.size ∧ out.size = dst.size ∧
      ∀ i, src.size ≤ i → out[i]? = dst[i]? := by
  refine ⟨fun hmid => piecesWritten_of_pass hmid hwidth hok, ?_, ?_⟩
  · intro hmid
    obtain ⟨-, rfl⟩ := copied_of_pass hmid hwidth hok
    rw [← Array.length_toList, ← Nat.zero_add src.toList.length]
    exact Slots.segment_overwrite_self (Nat.zero_le _)
  · obtain ⟨written, hperm, hroom, rfl⟩ := written_perm_of_pass hwidth hok
    have hlength : 0 + written.length = src.size := by
      rw [Nat.zero_add, hperm.length_eq, Array.length_toList]
    have hsize : (overwrite dst 0 written).size = dst.size := Slots.size_overwrite (by omega)
    refine ⟨?_, hsize ▸ hroom, hsize, ?_⟩
    · rw [← hlength, Slots.segment_overwrite_self (Nat.zero_le _)]
      exact hperm
    · intro i hi
      exact Slots.getElem?_overwrite_of_outside (by omega) (.inr (by omega))

/-- Runs of one element from both halves of eight, and three elements with a cut behind them. -/
theorem pass_writes_pieces_eight :
    0 < 1 ∧ 0 < 3 ∧
      (∃ out, pass (#[8, 4, 2, 1, 7, 6, 5, 4] : Array Int32) (.replicate 9 0) 4 1 = .ok out ∧
        segment out 0 8 = [7, 8, 4, 6, 2, 5, 1, 4] ∧
          (segment out (pieceStart 8 4 1 1) (pieceStart 8 4 1 2)).Pairwise (· ≤ ·) ∧
            out[8]? = some 0) ∧
      ∃ out, pass (#[3, 1, 2] : Array Int32) (.replicate 4 0) 5 3 = .ok out ∧
        segment out 0 3 = [3, 1, 2] := by
  obtain ⟨out, hinside⟩ : ∃ out, pass (#[8, 4, 2, 1, 7, 6, 5, 4] : Array Int32) (.replicate 9 0) 4 1 =
      .ok out :=
    ⟨_, (pass_eq_ok_iff (by decide) (by decide) (by decide)).mpr ⟨by decide, rfl⟩⟩
  obtain ⟨out', hbeyond⟩ : ∃ out, pass (#[3, 1, 2] : Array Int32) (.replicate 4 0) 5 3 = .ok out :=
    ⟨_, (pass_eq_ok_iff_of_beyond (by decide) (by decide) (by decide)).mpr ⟨by decide, rfl⟩⟩
  obtain ⟨hpieces, -, -, -, -, hkept⟩ := pass_writes_pieces _ _ _ _ _ (by decide) hinside
  obtain ⟨-, hcopied, -⟩ := pass_writes_pieces _ _ _ _ _ (by decide) hbeyond
  have hpieces := hpieces (by decide)
  refine ⟨by decide, by decide, ⟨out, hinside, ?_, ?_, ?_⟩, out', hbeyond,
    hcopied (by decide)⟩
  · exact hpieces.row.trans (by cbv)
  · exact hpieces.sorted 1 (by decide) (by decide) (by decide)
  · exact (hkept 8 (by decide)).trans rfl

end RunMerge.FixedMid
