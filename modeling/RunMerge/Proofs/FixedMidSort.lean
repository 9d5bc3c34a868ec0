import Mathlib.Data.List.Perm.Basic
import RunMerge.Proofs.FixedMidPass
import RunMerge.Proofs.Lengths
import RunMerge.Proofs.SortedLists

/-!
# The fixed-mid passes sort

Between passes the elements are grouped by the residue of their first position, not by the position
itself: block `t` holds the class of `t`, in order. A pass joins the classes of `t` and `m + t`,
which lie in different halves, to one class of half the modulus. If the length is one less than a
power of two, it is the last class that lacks an element, at every modulus. A modulus that no position
reaches leaves each element alone in its class.
-/

namespace RunMerge

section Residues

variable {α : Type}

/-- The elements whose position leaves the remainder `t` modulo `m`, in their order. -/
def residues (xs : List α) (m t : Nat) : List α :=
  (xs.zipIdx.filter fun p => p.2 % m == t).map Prod.fst

@[simp] theorem residues_one (xs : List α) : residues xs 1 0 = xs := by
  simp [residues, Nat.mod_one]

theorem mod_eq_mod_double {m : Nat} (hm : 0 < m) (j : Nat) :
    j % m = if j % (2 * m) < m then j % (2 * m) else j % (2 * m) - m := by
  have hlt : j % (2 * m) < 2 * m := Nat.mod_lt j (by omega)
  rw [← Nat.mod_mod_of_dvd j (Nat.dvd_mul_left m 2)]
  split
  · next h => exact Nat.mod_eq_of_lt h
  · next h => rw [Nat.mod_eq_sub_mod (by omega), Nat.mod_eq_of_lt (by omega)]

/-- A class modulo `m` is made of two classes modulo `2 * m`. -/
theorem residues_append_perm (xs : List α) {m t : Nat} (ht : t < m) :
    (residues xs (2 * m) t ++ residues xs (2 * m) (m + t)).Perm (residues xs m t) := by
  have hmod := mod_eq_mod_double (by omega : 0 < m)
  have hsplit := List.filter_append_perm (fun p : α × Nat => p.2 % (2 * m) == t)
    (xs.zipIdx.filter fun p => p.2 % m == t)
  have hlow : ∀ j, (j % (2 * m) == t && j % m == t) = (j % (2 * m) == t) := by
    intro j
    rw [hmod j, Bool.eq_iff_iff, Bool.and_eq_true, beq_iff_eq, beq_iff_eq]
    split <;> omega
  have hhigh : ∀ j, (!(j % (2 * m) == t) && j % m == t) = (j % (2 * m) == m + t) := by
    intro j
    rw [hmod j, Bool.eq_iff_iff, Bool.and_eq_true, beq_iff_eq, beq_iff_eq,
      Bool.not_eq_true', beq_eq_false_iff_ne]
    split <;> omega
  simp only [List.filter_filter, hlow, hhigh] at hsplit
  rw [residues, residues, ← List.map_append]
  exact hsplit.map Prod.fst

theorem filter_zipIdx_eq (xs : List α) (k t : Nat) :
    ((xs.zipIdx k).filter fun p => p.2 == k + t).map Prod.fst = (xs.drop t).take 1 := by
  induction xs generalizing k t with
  | nil => simp
  | cons x xs ih =>
    cases t with
    | zero =>
      have hrest : ((xs.zipIdx (k + 1)).filter fun p => p.2 == k) = [] := by
        refine List.filter_eq_nil_iff.mpr fun p hp => ?_
        have hle := List.le_snd_of_mem_zipIdx hp
        simp only [beq_iff_eq]
        omega
      simp [List.zipIdx_cons, hrest]
    | succ t =>
      have htail := ih (k + 1) t
      rw [Nat.add_right_comm, Nat.add_assoc] at htail
      simpa [List.zipIdx_cons] using htail

/-- Modulo the length or more, a class holds at most the element at its own position. -/
theorem residues_of_size_le {xs : Array α} {m t : Nat} (hm : xs.size ≤ m) :
    residues xs.toList m t = block xs 1 t := by
  have hfilter : (xs.toList.zipIdx.filter fun p => p.2 % m == t) =
      xs.toList.zipIdx.filter fun p => p.2 == 0 + t := by
    refine List.filter_congr fun p hp => ?_
    have hlt := List.snd_lt_of_mem_zipIdx hp
    rw [Array.length_toList] at hlt
    rw [Nat.mod_eq_of_lt (by omega), Nat.zero_add]
  rw [residues, hfilter, filter_zipIdx_eq, block, Slots.segment]
  simp

end Residues

namespace FixedMid

variable {α : Type} [LE α] [DecidableLE α]

def dataAfter (data : Array α) (mid : Nat) : Nat → Array α
  | 0 => data
  | p + 1 => (pairedRow (dataAfter data mid p) mid (2 ^ p) (mid / 2 ^ p)).toArray

/-- The buffer, which from the first pass on holds the same. -/
def bufferAfter (data buffer : Array α) (mid : Nat) : Nat → Array α
  | 0 => buffer
  | p + 1 => dataAfter data mid (p + 1)

def workspaceAfter (data buffer : Array α) (mid p : Nat) : Workspace α where
  data := dataAfter data mid p
  buffer := bufferAfter data buffer mid p
  log := (List.range p).map fun e => .fixedMidPass (2 ^ e) mid

/-- What the passes need of a length and the logarithm of its midpoint. -/
theorem bounds_of_midpoint {n k : Nat} (hmid : midpoint n = 2 ^ k) :
    n ≤ 2 * 2 ^ k ∧ 2 * 2 ^ k ≤ n + 1 ∧ 2 ^ k ≤ n := by
  have hpos := Nat.two_pow_pos k
  rw [midpoint] at hmid
  omega

theorem midpoint_div {k p : Nat} (hp : p ≤ k) : 2 ^ k = 2 ^ (k - p) * 2 ^ p ∧
    2 ^ k / 2 ^ p = 2 ^ (k - p) := by
  have hmul : 2 ^ k = 2 ^ (k - p) * 2 ^ p := by rw [← Nat.pow_add, Nat.sub_add_cancel hp]
  exact ⟨hmul, by rw [hmul, Nat.mul_div_cancel _ (Nat.two_pow_pos p)]⟩

theorem size_dataAfter {data : Array α} {k : Nat} (hmid : midpoint data.size = 2 ^ k) {p : Nat}
    (hp : p ≤ k + 1) : (dataAfter data (2 ^ k) p).size = data.size := by
  obtain ⟨hlow, hhigh, hle⟩ := bounds_of_midpoint hmid
  induction p with
  | zero => rfl
  | succ p ih =>
    have hsize := ih (by omega)
    obtain ⟨hmul, hdiv⟩ := midpoint_div (by omega : p ≤ k)
    rw [dataAfter, List.size_toArray, hdiv, length_pairedRow (by omega) (by omega), ← hmul, hsize]
    omega

/-- A pass of the schedule succeeds, and nothing of the old buffer is left. -/
theorem step_workspaceAfter {data buffer : Array α} {k : Nat} (hword : data.size < Word.largest)
    (hmid : midpoint data.size = 2 ^ k) (hbuffer : buffer.size = data.size) {p : Nat} (hp : p ≤ k) :
    step (2 ^ k) (workspaceAfter data buffer (2 ^ k) p) (2 ^ p) =
      .ok (workspaceAfter data buffer (2 ^ k) (p + 1)) := by
  obtain ⟨hlow, hhigh, hle⟩ := bounds_of_midpoint hmid
  have hsize := size_dataAfter hmid (by omega : p ≤ k + 1)
  have hnext := size_dataAfter hmid (by omega : p + 1 ≤ k + 1)
  have hbuffer' : (bufferAfter data buffer (2 ^ k) p).size = data.size := by
    cases p with
    | zero => exact hbuffer
    | succ p => exact hsize
  have hpass : pass (dataAfter data (2 ^ k) p) (bufferAfter data buffer (2 ^ k) p) (2 ^ k) (2 ^ p) =
      .ok (dataAfter data (2 ^ k) (p + 1)) := by
    rw [Word.largest] at hword
    apply (pass_eq_ok_iff (by omega) (by omega) (Nat.two_pow_pos p)).mpr
    refine ⟨⟨?_, by omega, by omega⟩, ?_⟩
    · exact Nat.pow_dvd_pow 2 hp
    · refine Slots.overwrite_all ?_
      rw [dataAfter, List.size_toArray] at hnext
      omega
  have hreplace : Slots.replace (dataAfter data (2 ^ k) p) (dataAfter data (2 ^ k) (p + 1)) =
      .ok (dataAfter data (2 ^ k) (p + 1)) := Slots.replace_of_size_eq (by omega)
  simp only [step, workspaceAfter, hpass, hreplace, Checked.ok_bind, Checked.pure_eq_ok,
    List.range_succ, List.map_append, List.map_singleton]
  rfl

theorem foldlM_step {data buffer : Array α} {k : Nat} (hword : data.size < Word.largest)
    (hmid : midpoint data.size = 2 ^ k) (hbuffer : buffer.size = data.size) {p : Nat}
    (hp : p ≤ k + 1) :
    ((List.range p).map (2 ^ ·)).foldlM (step (2 ^ k)) ⟨data, buffer, []⟩ =
      .ok (workspaceAfter data buffer (2 ^ k) p) := by
  induction p with
  | zero => rfl
  | succ p ih =>
    rw [List.range_succ, List.map_append, List.foldlM_append, ih (by omega), Checked.ok_bind,
      List.map_singleton, List.foldlM_cons, step_workspaceAfter hword hmid hbuffer (by omega)]
    rfl

/-- All passes succeed, whatever the buffer holds. -/
theorem run_eq {data buffer : Array α} {k : Nat} (h2 : 2 ≤ data.size)
    (hword : data.size < Word.largest) (hmid : midpoint data.size = 2 ^ k)
    (hbuffer : buffer.size = data.size) :
    run data buffer = .ok ⟨dataAfter data (2 ^ k) (k + 1), dataAfter data (2 ^ k) (k + 1),
      (List.range (k + 1)).map fun e => .fixedMidPass (2 ^ e) (2 ^ k)⟩ := by
  have hlimit := Word.lt_limit_of_lt_largest hword
  rw [run, widths_eq hlimit, clog_of_midpoint h2 hmid, hmid,
    foldlM_step hword hmid hbuffer (Nat.le_refl _)]
  rfl

structure ClassesSorted (start : Array α) (m w : Nat) (xs : Array α) : Prop where
  size_eq : xs.size = start.size
  block_eq : ∀ t < m, block xs w t = (residues start.toList m t).mergeSort

theorem classesSorted_one {data : Array α} {m : Nat} (hm : data.size ≤ m) :
    ClassesSorted data m 1 data where
  size_eq := rfl
  block_eq t _ := by
    have hsorted : (block data 1 t).Pairwise (· ≤ ·) :=
      pairwise_of_length_le_one (length_block_le data 1 t)
    rw [residues_of_size_le hm, mergeSort_of_sorted hsorted]

/-- With a single class the array is in order. -/
theorem ClassesSorted.toList_eq {start xs : Array α} {w : Nat} (h : ClassesSorted start 1 w xs)
    (hw : start.size ≤ w) : xs.toList = start.toList.mergeSort := by
  have hwhole := h.block_eq 0 Nat.one_pos
  rwa [residues_one, block_whole (h.size_eq ▸ hw)] at hwhole

variable [Std.IsLinearOrder α]

/-- A pass joins the classes of `t` and `m + t`. -/
theorem classesSorted_pairedRow {start src : Array α} {mid m w : Nat} (hmul : mid = m * w)
    (hw : 0 < w) (hlow : src.size ≤ 2 * mid) (hhigh : 2 * mid ≤ src.size + 1)
    (hsize : (pairedRow src mid w m).length = src.size) (h : ClassesSorted start (2 * m) w src) :
    ClassesSorted start m (2 * w) (pairedRow src mid w m).toArray where
  size_eq := by rw [List.size_toArray, hsize, h.size_eq]
  block_eq t ht := by
    subst hmul
    rw [block_pairedRow hw hlow hhigh ht, h.block_eq t (by omega), h.block_eq (m + t) (by omega),
      merge_mergeSort, mergeSort_eq_of_perm (residues_append_perm start.toList ht)]

theorem classesSorted_dataAfter {data : Array α} {k : Nat} (hmid : midpoint data.size = 2 ^ k)
    {p : Nat} (hp : p ≤ k + 1) :
    ClassesSorted data (2 ^ (k + 1 - p)) (2 ^ p) (dataAfter data (2 ^ k) p) := by
  obtain ⟨hlow, hhigh, hle⟩ := bounds_of_midpoint hmid
  induction p with
  | zero => exact classesSorted_one (by rw [Nat.sub_zero, Nat.pow_succ, Nat.mul_comm]; exact hlow)
  | succ p ih =>
    have hsize := size_dataAfter hmid (by omega : p ≤ k + 1)
    have hnext := size_dataAfter hmid (by omega : p + 1 ≤ k + 1)
    obtain ⟨hmul, hdiv⟩ := midpoint_div (by omega : p ≤ k)
    have hclasses : 2 ^ (k + 1 - p) = 2 * 2 ^ (k - p) := by
      rw [Nat.sub_add_comm (by omega : p ≤ k), Nat.pow_succ, Nat.mul_comm]
    have hih := ih (by omega)
    rw [hclasses] at hih
    rw [dataAfter, List.size_toArray, hdiv, ← hsize] at hnext
    rw [Nat.add_sub_add_right, Nat.pow_succ 2 p, Nat.mul_comm (2 ^ p), dataAfter, hdiv]
    exact classesSorted_pairedRow hmul (Nat.two_pow_pos p) (by omega) (by omega) hnext hih

/-- After the last pass the array is sorted. -/
theorem dataAfter_last {data : Array α} {k : Nat} (hmid : midpoint data.size = 2 ^ k) :
    (dataAfter data (2 ^ k) (k + 1)).toList = data.toList.mergeSort := by
  have hclasses := classesSorted_dataAfter hmid (Nat.le_refl (k + 1))
  rw [Nat.sub_self, Nat.pow_zero] at hclasses
  exact hclasses.toList_eq (by rw [Nat.pow_succ, Nat.mul_comm]; exact (bounds_of_midpoint hmid).1)

end FixedMid

end RunMerge
