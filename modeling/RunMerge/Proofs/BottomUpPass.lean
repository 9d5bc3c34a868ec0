import RunMerge.Proofs.Merging

/-!
# What a bottom-up pass writes

A pass goes over windows of two neighbouring blocks. It settles each window on its own, into the
same positions of the target, and it stops with a fault exactly when the target is too short. What
the target held before has no influence.

On a longer target each window is written in its own place, from what the source has there, and
nothing behind the last window is touched. The windows are those of numbers without a bound: where
sums saturate, the array has ended before.
-/

namespace RunMerge

open Slots (segment overwrite)

variable {α : Type} [LE α] [DecidableLE α]

def InOrder (xs ys : List α) : Prop := ∀ x ∈ xs.getLast?, ∀ y ∈ ys.head?, x ≤ y

instance (xs ys : List α) : Decidable (InOrder xs ys) :=
  inferInstanceAs (Decidable (∀ x ∈ xs.getLast?, ∀ y ∈ ys.head?, x ≤ y))

/-- Two runs, left as they are if their boundary is in order and merged otherwise. -/
def settleRuns (xs ys : List α) : List α := if InOrder xs ys then xs ++ ys else List.merge xs ys

@[simp] theorem length_settleRuns (xs ys : List α) :
    (settleRuns xs ys).length = xs.length + ys.length := by
  unfold settleRuns
  split <;> simp

namespace BottomUp

def settled (src : Array α) (w : Window) : List α :=
  settleRuns (segment src w.left w.mid) (segment src w.mid w.right)

structure Window.Inside (w : Window) (len : Nat) : Prop where
  left_lt_mid : w.left < w.mid
  mid_le_right : w.mid ≤ w.right
  right_le_len : w.right ≤ len

omit [DecidableLE α] in
/-- Two runs of a window meet in order when the elements at their boundary do. -/
theorem inOrder_iff_boundary {src : Array α} {w : Window} (h : w.Inside src.size)
    (hm : w.mid < w.right) (hmid : w.mid < src.size) :
    InOrder (segment src w.left w.mid) (segment src w.mid w.right) ↔
      src[w.mid - 1] ≤ src[w.mid] := by
  simp [InOrder, Slots.segment_getLast? h.left_lt_mid (Nat.le_of_lt hmid),
    Slots.segment_head? hm hmid]

theorem boundaryInOrder_eq {src : Array α} {w : Window} (h : w.Inside src.size)
    (hm : w.mid < w.right) :
    boundaryInOrder src w.mid =
      .ok (decide (InOrder (segment src w.left w.mid) (segment src w.mid w.right))) := by
  have hpos : 0 < w.mid := Nat.zero_lt_of_lt h.left_lt_mid
  have hmid : w.mid < src.size := Nat.lt_of_lt_of_le hm h.right_le_len
  have hbefore : w.mid - 1 < src.size := by omega
  rw [boundaryInOrder, Word.sub_of_le hpos, Checked.ok_bind, Slots.fetch_of_lt hbefore,
    Checked.ok_bind, Slots.fetch_of_lt hmid, Checked.ok_bind, Checked.pure_eq_ok,
    decide_eq_decide.mpr (inOrder_iff_boundary h hm hmid)]

/-- A window that needs no merge is settled as it stands. -/
theorem settled_of_inOrder {src : Array α} {w : Window} (h : w.Inside src.size)
    (ho : InOrder (segment src w.left w.mid) (segment src w.mid w.right)) :
    settled src w = segment src w.left w.right := by
  rw [settled, settleRuns, if_pos ho]
  exact Slots.segment_append src (Nat.le_of_lt h.left_lt_mid) h.mid_le_right

/-- Merging a window succeeds exactly when the target reaches to its end. -/
theorem mergeWindow_eq_ok_iff {src dst out : Array α} {w : Window} (h : w.Inside src.size)
    (hword : dst.size < Word.limit) :
    mergeWindow src dst w = .ok out ↔
      w.right ≤ dst.size ∧ overwrite dst w.left
        (List.merge (segment src w.left w.mid) (segment src w.mid w.right)) = out := by
  obtain ⟨hl, hm, hr⟩ := h
  rw [mergeWindow, mergeRanges_eq_ok_iff hword]
  simp only [Cursor.Fits, Cursor.rest]
  constructor <;> rintro ⟨hfits, hout⟩ <;> exact ⟨by omega, hout⟩

/-- Settling a window succeeds exactly when the target reaches to its end. -/
theorem settleWindow_eq_ok_iff {src dst out : Array α} {w : Window} (h : w.Inside src.size)
    (hword : dst.size < Word.limit) :
    settleWindow src dst w = .ok out ↔
      w.right ≤ dst.size ∧ overwrite dst w.left (settled src w) = out := by
  have hin := h
  obtain ⟨hl, hm, hr⟩ := hin
  -- both ways of copying write the whole window
  have hcopy : Slots.copyRange src dst w.left w.right w.left = .ok out ↔
      w.right ≤ dst.size ∧ overwrite dst w.left (segment src w.left w.right) = out := by
    rw [Slots.copyRange_eq_ok_iff hword]
    constructor <;> rintro ⟨hfits, hout⟩ <;> exact ⟨by omega, hout⟩
  unfold settleWindow
  split
  · next hempty =>
    have ho : InOrder (segment src w.left w.mid) (segment src w.mid w.right) := by
      simp [InOrder, Slots.segment_of_past_le src hempty]
    rw [hcopy, settled_of_inOrder h ho]
  · next hsecond =>
    rw [boundaryInOrder_eq h (by omega), Checked.ok_bind]
    by_cases ho : InOrder (segment src w.left w.mid) (segment src w.mid w.right)
    · simp only [ho, decide_true, if_true]
      rw [hcopy, settled_of_inOrder h ho]
    · simp only [ho, decide_false, Bool.false_eq_true, if_false]
      rw [mergeWindow_eq_ok_iff h hword, settled, settleRuns, if_neg ho]

theorem startingAt_eq {len width left : Nat} (hlen : len < Word.limit) (hleft : left ≤ len) :
    Window.startingAt len width left =
      ⟨left, min (left + width) len, min (left + 2 * width) len⟩ := by
  simp only [Window.startingAt, Word.satAdd, Word.largest, Window.mk.injEq, true_and]
  omega

/-- A window that starts inside the array is not empty. -/
theorem windowsFrom_eq_ite {n width : Nat} (hn : n < Word.limit) (hwidth : 0 < width)
    (left : Nat) : windowsFrom n width left =
      if left < n then
        .startingAt n width left :: windowsFrom n width (Window.startingAt n width left).right
      else [] := by
  rw [windowsFrom]
  refine ite_congr (propext ⟨And.left, fun hlt => ⟨hlt, ?_⟩⟩) (fun _ => rfl) (fun _ => rfl)
  simp only [Window.startingAt, Word.satAdd, Word.largest]
  omega

theorem windowsFrom_of_le {len width left : Nat} (h : len ≤ left) :
    windowsFrom len width left = [] := by
  rw [windowsFrom, if_neg (by omega)]

def windowAt (len width t : Nat) : Window :=
  ⟨t * (2 * width), min (t * (2 * width) + width) len, min ((t + 1) * (2 * width)) len⟩

theorem windowsFrom_eq {len width : Nat} (hlen : len < Word.limit) (hwidth : 0 < width) (t : Nat) :
    windowsFrom len width (t * (2 * width)) =
      (List.range' t (blockCount len (2 * width) - t)).map (windowAt len width) := by
  have hcount : ∀ s, s < blockCount len (2 * width) ↔ s * (2 * width) < len := fun s =>
    lt_blockCount_iff (by omega)
  induction hd : blockCount len (2 * width) - t generalizing t with
  | zero =>
    have hend : len ≤ t * (2 * width) := Nat.not_lt.mp fun h => by
      have := (hcount t).mpr h
      omega
    rw [windowsFrom_of_le hend]
    rfl
  | succ d ih =>
    have hleft : t * (2 * width) < len := (hcount t).mp (by omega)
    have hnext : t * (2 * width) + 2 * width = (t + 1) * (2 * width) := (Nat.add_one_mul _ _).symm
    have hwindow : Window.startingAt len width (t * (2 * width)) = windowAt len width t := by
      rw [startingAt_eq hlen (by omega), hnext, windowAt]
    have hright : t * (2 * width) < (windowAt len width t).right := by
      simp only [windowAt]
      omega
    rw [windowsFrom, hwindow, if_pos ⟨hleft, hright⟩, List.range'_succ, List.map_cons,
      ← ih (t + 1) (by omega)]
    congr 1
    -- the last window is cut off at the end, where no further window starts
    rcases Nat.le_total ((t + 1) * (2 * width)) len with hfull | hshort
    · simp only [windowAt, Nat.min_eq_left hfull]
    · rw [windowsFrom_of_le hshort]
      exact windowsFrom_of_le (by simp only [windowAt, Nat.min_eq_right hshort]; omega)

theorem windows_eq {len width : Nat} (hlen : len < Word.limit) (hwidth : 0 < width) :
    windows len width = (List.range (blockCount len (2 * width))).map (windowAt len width) := by
  have h := windowsFrom_eq hlen hwidth 0
  rwa [Nat.zero_mul, Nat.sub_zero, ← List.range_eq_range'] at h

theorem windowAt_inside {len width t : Nat} (hwidth : 0 < width)
    (ht : t < blockCount len (2 * width)) : (windowAt len width t).Inside len := by
  have hleft : t * (2 * width) < len := (lt_blockCount_iff (by omega)).mp ht
  have hnext : (t + 1) * (2 * width) = t * (2 * width) + 2 * width := Nat.add_one_mul _ _
  constructor <;> simp only [windowAt] <;> omega

def settledBlock (src : Array α) (width t : Nat) : List α :=
  settleRuns (block src width (2 * t)) (block src width (2 * t + 1))

theorem windowAt_eq (len width t : Nat) : windowAt len width t =
    ⟨2 * t * width, min ((2 * t + 1) * width) len, min ((2 * t + 1 + 1) * width) len⟩ := by
  have hleft : t * (2 * width) = 2 * t * width := by rw [Nat.mul_left_comm, Nat.mul_assoc]
  have hmid : 2 * t * width + width = (2 * t + 1) * width := (Nat.add_one_mul _ _).symm
  have hright : (t + 1) * (2 * width) = (2 * t + 1 + 1) * width := by
    rw [Nat.mul_left_comm, ← Nat.mul_assoc]
    rfl
  rw [windowAt, hleft, hmid, hright]

omit [LE α] [DecidableLE α] in
theorem leftRun_windowAt (src : Array α) (width t : Nat) :
    segment src (windowAt src.size width t).left (windowAt src.size width t).mid =
      block src width (2 * t) := by
  rw [windowAt_eq, Slots.segment_min_size, block]

omit [LE α] [DecidableLE α] in
theorem rightRun_windowAt (src : Array α) (width t : Nat) :
    segment src (windowAt src.size width t).mid (windowAt src.size width t).right =
      block src width (2 * t + 1) := by
  rw [windowAt_eq, Slots.segment_min_size, Slots.segment_min_start, block]

/-- The two runs of a window are the two halves of its block. -/
theorem settled_windowAt (src : Array α) (width t : Nat) :
    settled src (windowAt src.size width t) = settledBlock src width t := by
  rw [settled, leftRun_windowAt, rightRun_windowAt, settledBlock]

theorem length_settledBlock (src : Array α) (width t : Nat) :
    (settledBlock src width t).length = (block src (2 * width) t).length := by
  rw [settledBlock, length_settleRuns, ← List.length_append, block_double]

def passed (src : Array α) (width : Nat) : List α :=
  (List.range (blockCount src.size (2 * width))).flatMap (settledBlock src width)

/-- The blocks before block `m` are full. -/
theorem length_settledBlocks {src : Array α} {width m : Nat} (hm : m * (2 * width) < src.size) :
    ((List.range m).flatMap (settledBlock src width)).length = m * (2 * width) := by
  apply length_flatMap_range
  intro t ht
  have hfull : (t + 1) * (2 * width) ≤ m * (2 * width) := Nat.mul_le_mul_right _ ht
  rw [length_settledBlock, length_block_of_full (by omega)]

/-- The next window is settled right behind what the windows before it have written. -/
theorem settleWindow_after_eq_ok_iff {src dst out : Array α} {width m : Nat}
    (hdst : dst.size < Word.limit) (hwidth : 0 < width)
    (hm : m < blockCount src.size (2 * width)) (hroom : m * (2 * width) ≤ dst.size) :
    settleWindow src (overwrite dst 0 ((List.range m).flatMap (settledBlock src width)))
        (windowAt src.size width m) = .ok out ↔
      min ((m + 1) * (2 * width)) src.size ≤ dst.size ∧
        overwrite dst 0 ((List.range (m + 1)).flatMap (settledBlock src width)) = out := by
  have hinside := windowAt_inside hwidth hm
  have hlength := length_settledBlocks ((lt_blockCount_iff (by omega)).mp hm)
  have hroom' : 0 + ((List.range m).flatMap (settledBlock src width)).length ≤ dst.size := by
    omega
  have hleft : (windowAt src.size width m).left =
      0 + ((List.range m).flatMap (settledBlock src width)).length := by
    rw [hlength, Nat.zero_add, windowAt]
  have hsize := Slots.size_overwrite hroom'
  rw [settleWindow_eq_ok_iff hinside (by rw [hsize]; exact hdst), hsize, settled_windowAt, hleft,
    Slots.overwrite_overwrite _ _ hroom', List.range_succ, List.flatMap_append,
    List.flatMap_singleton]
  rfl

/-- The windows before block `m` are settled one after the other, each where the one before it
ends. -/
theorem foldlM_settleWindow_eq_ok_iff {src dst out : Array α} {width : Nat}
    (hdst : dst.size < Word.limit) (hwidth : 0 < width) (m : Nat)
    (hm : m ≤ blockCount src.size (2 * width)) :
    ((List.range m).map (windowAt src.size width)).foldlM (settleWindow src) dst = .ok out ↔
      min (m * (2 * width)) src.size ≤ dst.size ∧
        overwrite dst 0 ((List.range m).flatMap (settledBlock src width)) = out := by
  induction m generalizing out with
  | zero => simp
  | succ m ih =>
    have hstart : m * (2 * width) < src.size := (lt_blockCount_iff (by omega)).mp (by omega)
    have hnext : (m + 1) * (2 * width) = m * (2 * width) + 2 * width := Nat.add_one_mul _ _
    rw [List.range_succ, List.map_append, List.foldlM_append, List.map_singleton,
      Checked.bind_eq_ok_iff, ← List.range_succ]
    simp only [List.foldlM_cons, List.foldlM_nil, bind_pure]
    constructor
    · rintro ⟨d, hd, hok⟩
      obtain ⟨hroom, rfl⟩ := (ih (by omega)).mp hd
      exact (settleWindow_after_eq_ok_iff hdst hwidth hm (by omega)).mp hok
    · rintro ⟨hroom, hout⟩
      refine ⟨_, (ih (by omega)).mpr ⟨by omega, rfl⟩, ?_⟩
      exact (settleWindow_after_eq_ok_iff hdst hwidth hm (by omega)).mpr ⟨hroom, hout⟩

/-- A pass succeeds exactly when the target is long enough. -/
theorem pass_eq_ok_iff {src dst out : Array α} {width : Nat} (hsrc : src.size < Word.limit)
    (hdst : dst.size < Word.limit) (hwidth : 0 < width) :
    pass src dst width = .ok out ↔
      src.size ≤ dst.size ∧ overwrite dst 0 (passed src width) = out := by
  have hall : src.size ≤ blockCount src.size (2 * width) * (2 * width) := Nat.not_lt.mp fun h => by
    have := (lt_blockCount_iff (by omega)).mpr h
    omega
  rw [pass, windows_eq hsrc hwidth, foldlM_settleWindow_eq_ok_iff hdst hwidth _ (Nat.le_refl _),
    Nat.min_eq_right hall, passed]

theorem length_passed (src : Array α) {width : Nat} (hwidth : 0 < width) :
    (passed src width).length = src.size := by
  have hblocks : (passed src width).length =
      ((List.range (blockCount src.size (2 * width))).flatMap (block src (2 * width))).length := by
    simp only [passed, List.length_flatMap, length_settledBlock]
  rw [hblocks, flatMap_blocks (by omega), Array.length_toList]

/-- Into an array of the same size a pass always succeeds, and nothing of that array is left. -/
theorem pass_of_size_eq {src dst : Array α} {width : Nat} (hsrc : src.size < Word.limit)
    (hdst : dst.size = src.size) (hwidth : 0 < width) :
    pass src dst width = .ok (passed src width).toArray := by
  refine (pass_eq_ok_iff hsrc (by omega) hwidth).mpr ⟨by omega, ?_⟩
  exact Slots.overwrite_all (by rw [length_passed src hwidth, hdst])

theorem block_passed (src : Array α) {width : Nat} (hwidth : 0 < width) (t : Nat) :
    block (passed src width).toArray (2 * width) t = settledBlock src width t := by
  have hcount : ∀ s, s < blockCount src.size (2 * width) ↔ s * (2 * width) < src.size := fun s =>
    lt_blockCount_iff (by omega)
  have hlength : ∀ s, s < blockCount src.size (2 * width) →
      (settledBlock src width s).length ≤ 2 * width := fun s _ => by
    rw [length_settledBlock]
    exact length_block_le _ _ _
  by_cases ht : t < blockCount src.size (2 * width)
  · refine block_of_flatMap rfl (fun s hs => ?_) hlength ht
    have hnext := (hcount (s + 1)).mp hs
    rw [length_settledBlock, length_block_of_full (by omega)]
  · have hend : src.size ≤ t * (2 * width) := Nat.not_lt.mp fun h => ht ((hcount t).mpr h)
    have hempty : settledBlock src width t = [] := by
      rw [← List.length_eq_zero_iff, length_settledBlock, block_of_size_le hend, List.length_nil]
    rw [hempty]
    exact block_of_size_le (by rw [List.size_toArray, length_passed src hwidth]; exact hend)

/-- A window as a pass leaves it. It is copied if its second run is empty or begins no lower than the
first one ends, and is the left-first merge of its runs otherwise. -/
structure Window.Settled (src out : Array α) (w : Window) : Prop
    extends Window.Inside w src.size where
  copied_of_single : w.mid = w.right →
    segment out w.left w.right = segment src w.left w.right
  copied_of_le : ∀ _ : w.mid < w.right, src[w.mid - 1] ≤ src[w.mid] →
    segment out w.left w.right = segment src w.left w.right
  merged_of_not_le : ∀ _ : w.mid < w.right, ¬src[w.mid - 1] ≤ src[w.mid] →
    segment out w.left w.right = List.merge (segment src w.left w.mid) (segment src w.mid w.right)
  perm : (segment out w.left w.right).Perm (segment src w.left w.right)

/-- The windows are visited one after the other, and window `t` starts behind `t` pairs of runs. -/
theorem getElem?_windows {len width : Nat} (hlen : len < Word.limit) (hwidth : 0 < width) (t : Nat) :
    (windows len width)[t]? =
      if 2 * t * width < len then some (windowAt len width t) else none := by
  have hcount := @lt_blockCount_iff len (2 * width) t (by omega)
  have hleft : t * (2 * width) = 2 * t * width := by rw [Nat.mul_left_comm, Nat.mul_assoc]
  rw [hleft] at hcount
  rw [windows_eq hlen hwidth, List.getElem?_map]
  split
  · next ht => rw [List.getElem?_range (hcount.mpr ht), Option.map_some]
  · next ht =>
    rw [List.getElem?_eq_none (by rw [List.length_range]; omega), Option.map_none]

/-- What a pass leaves in the place of a block is known from the two runs of the source there. -/
theorem segment_of_pass {src dst out : Array α} {width : Nat} (hsrc : src.size < Word.limit)
    (hdst : dst.size < Word.limit) (hwidth : 0 < width) (hok : pass src dst width = .ok out)
    (t : Nat) :
    segment out (t * (2 * width)) (min ((t + 1) * (2 * width)) src.size) =
      settledBlock src width t := by
  obtain ⟨hroom, rfl⟩ := (pass_eq_ok_iff hsrc hdst hwidth).mp hok
  have hlength : (passed src width).length = src.size := length_passed src hwidth
  rw [Slots.segment_overwrite (Nat.zero_le _) (Nat.zero_le _) (by omega), Nat.sub_zero, Nat.sub_zero,
    ← hlength, ← List.size_toArray, Slots.segment_min_size]
  exact block_passed src hwidth t

theorem settleRuns_perm (xs ys : List α) : (settleRuns xs ys).Perm (xs ++ ys) := by
  unfold settleRuns
  split
  · exact List.Perm.refl _
  · exact List.merge_perm_append _

/-- A window in whose place the settled runs stand. -/
theorem settled_of_segment_eq {src out : Array α} {w : Window} (h : w.Inside src.size)
    (hout : segment out w.left w.right = settled src w) : w.Settled src out := by
  refine { h with copied_of_single := ?_, copied_of_le := ?_, merged_of_not_le := ?_, perm := ?_ }
  · intro hempty
    have ho : InOrder (segment src w.left w.mid) (segment src w.mid w.right) := by
      simp [InOrder, Slots.segment_of_past_le src (Nat.le_of_eq hempty.symm)]
    rw [hout, settled_of_inOrder h ho]
  · intro hsecond hle
    have ho := (inOrder_iff_boundary h hsecond (Nat.lt_of_lt_of_le hsecond h.right_le_len)).mpr hle
    rw [hout, settled_of_inOrder h ho]
  · intro hsecond hle
    have ho := mt (inOrder_iff_boundary h hsecond (Nat.lt_of_lt_of_le hsecond h.right_le_len)).mp hle
    rw [hout, settled, settleRuns, if_neg ho]
  · rw [hout, settled, ← Slots.segment_append src (Nat.le_of_lt h.left_lt_mid) h.mid_le_right]
    exact settleRuns_perm _ _

/-- The loop over the windows of an array ends only at the end of the array, and it takes them in
order, without a gap and without an overlap. A pass is a fault exactly when the target is shorter
than the source. Otherwise it settles each window in its place, runs in order or not, and leaves what
stands behind the last one as it was. -/
theorem pass_settles_windows (src dst : Array α) (width : Nat) (hsrc : src.size < Word.limit)
    (hdst : dst.size < Word.limit) (hwidth : 0 < width) :
    (∀ left, windowsFrom src.size width left =
        if left < src.size then
          .startingAt src.size width left ::
            windowsFrom src.size width (Window.startingAt src.size width left).right
        else []) ∧
      (∀ t, (windows src.size width)[t]? =
        if 2 * t * width < src.size then
          some ⟨2 * t * width, min ((2 * t + 1) * width) src.size,
            min (2 * (t + 1) * width) src.size⟩
        else none) ∧
      ((∃ fault, pass src dst width = .error fault) ↔ dst.size < src.size) ∧
      (src.size ≤ dst.size → ∃ out, pass src dst width = .ok out ∧ out.size = dst.size ∧
        (∀ w ∈ windows src.size width, w.Settled src out) ∧
        ∀ i, src.size ≤ i → out[i]? = dst[i]?) := by
  have hok : ∀ out, pass src dst width = .ok out ↔
      src.size ≤ dst.size ∧ overwrite dst 0 (passed src width) = out := fun out =>
    pass_eq_ok_iff hsrc hdst hwidth
  refine ⟨windowsFrom_eq_ite hsrc hwidth, ?_, ?_, ?_⟩
  · intro t
    rw [getElem?_windows hsrc hwidth, windowAt_eq]
    rfl
  · rw [Checked.exists_error_iff]
    simp only [hok, exists_and_left, exists_eq', and_true, Nat.not_le]
  · intro hroom
    have hpass := (hok _).mpr ⟨hroom, rfl⟩
    have hlength : 0 + (passed src width).length = src.size := by
      rw [length_passed src hwidth, Nat.zero_add]
    refine ⟨_, hpass, Slots.size_overwrite (by omega), ?_, ?_⟩
    · intro w hw
      rw [windows_eq hsrc hwidth, List.mem_map] at hw
      obtain ⟨t, ht, rfl⟩ := hw
      refine settled_of_segment_eq (windowAt_inside hwidth (List.mem_range.mp ht)) ?_
      rw [settled_windowAt]
      exact segment_of_pass hsrc hdst hwidth hpass t
    · intro i hi
      exact Slots.getElem?_overwrite_of_outside (by omega) (.inr (by omega))

/-- Seven elements: a pass of width one over pairs that are not in order, into a longer target; a
target that is too short; and the largest width there is, whose one window is the array. -/
theorem pass_settles_windows_seven :
    ((#[8, 4, 2, 1, 7, 6, 5] : Array Int32).size < Word.limit ∧
        (Array.replicate 8 (9 : Int32)).size < Word.limit ∧ 0 < 1 ∧ 0 < Word.largest) ∧
      (∃ out, pass (#[8, 4, 2, 1, 7, 6, 5] : Array Int32) (.replicate 8 9) 1 = .ok out ∧
        segment out 0 2 = [4, 8] ∧ segment out 6 7 = [5] ∧ out[7]? = some 9) ∧
      (∃ fault, pass (#[8, 4, 2, 1, 7, 6, 5] : Array Int32) (.replicate 6 9) 1 = .error fault) ∧
      (windows 7 Word.largest)[0]? = some ⟨0, 7, 7⟩ ∧ (windows 7 Word.largest)[1]? = none := by
  obtain ⟨-, hwindows, -, hroom⟩ := pass_settles_windows (#[8, 4, 2, 1, 7, 6, 5] : Array Int32)
    (.replicate 8 9) 1 (by decide) (by decide) (by decide)
  obtain ⟨-, -, hshort, -⟩ := pass_settles_windows (#[8, 4, 2, 1, 7, 6, 5] : Array Int32)
    (.replicate 6 9) 1 (by decide) (by decide) (by decide)
  obtain ⟨-, hwidest, -⟩ := pass_settles_windows (#[8, 4, 2, 1, 7, 6, 5] : Array Int32)
    (.replicate 8 9) Word.largest (by decide) (by decide) (by decide)
  obtain ⟨out, hok, -, hsettled, hkept⟩ := hroom (by decide)
  have hfirst := hsettled ⟨0, 1, 2⟩ (List.mem_of_getElem? (hwindows 0))
  have hlast := hsettled ⟨6, 7, 7⟩ (List.mem_of_getElem? (hwindows 3))
  have hboundary : ¬(8 : Int32) ≤ 4 := by decide
  refine ⟨by decide, ⟨out, hok, ?_, ?_, hkept 7 (by decide)⟩, hshort.mpr (by decide), hwidest 0,
    hwidest 1⟩
  · exact (hfirst.merged_of_not_le (by decide) hboundary).trans (by cbv)
  · exact (hlast.copied_of_single rfl).trans (by decide)

end BottomUp

end RunMerge
