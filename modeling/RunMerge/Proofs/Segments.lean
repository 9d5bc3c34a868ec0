import RunMerge.Checked

/-!
# Segments and blocks

What checked copies do, said without slots: a copy succeeds exactly when its ranges fit, and then
the target is the old one with a list of elements put over it. A `segment` reads such a list, and
`overwrite` writes one.

Passes are described block by block: block `t` of width `w` holds the positions `t * w` up to
`(t + 1) * w`, as far as the array has them. The blocks of one width make up the array, two
neighbours make up a block of twice the width, and what is written as a row of blocks can be read
block by block.
-/

namespace RunMerge

variable {α : Type}

namespace Slots

/-- The elements at positions `first, …, past - 1`, as far as the array has them. Bounds that are
out of order give no element. -/
def segment (xs : Array α) (first past : Nat) : List α :=
  (xs.toList.drop first).take (past - first)

def overwrite (dst : Array α) (k : Nat) (xs : List α) : Array α :=
  (dst.toList.take k ++ xs ++ dst.toList.drop (k + xs.length)).toArray

@[simp] theorem length_segment (xs : Array α) (first past : Nat) :
    (segment xs first past).length = min past xs.size - first := by
  simp only [segment, List.length_take, List.length_drop, Array.length_toList]
  omega

theorem segment_of_past_le (xs : Array α) {first past : Nat} (h : past ≤ first) :
    segment xs first past = [] := by
  rw [segment, Nat.sub_eq_zero_of_le h, List.take_zero]

theorem segment_of_size_le {xs : Array α} {first : Nat} (past : Nat) (h : xs.size ≤ first) :
    segment xs first past = [] := by
  rw [segment, List.drop_eq_nil_of_le (by simpa using h), List.take_nil]

theorem segment_cons {xs : Array α} {first past : Nat} (h : first < past) (hx : first < xs.size) :
    segment xs first past = xs[first] :: segment xs (first + 1) past := by
  have hd : xs.toList.drop first = xs[first] :: xs.toList.drop (first + 1) := by
    rw [List.drop_eq_getElem_cons (by simpa using hx), Array.getElem_toList]
  have hp : past - first = past - (first + 1) + 1 := by omega
  rw [segment, hd, hp, List.take_succ_cons, segment]

theorem segment_append (xs : Array α) {a b c : Nat} (hab : a ≤ b) (hbc : b ≤ c) :
    segment xs a b ++ segment xs b c = segment xs a c := by
  have hb : b = a + (b - a) := by omega
  have hc : c - a = (b - a) + (c - b) := by omega
  rw [segment, segment, segment, hc, List.take_add, List.drop_drop, ← hb]

theorem segment_head? {xs : Array α} {first past : Nat} (h : first < past)
    (hx : first < xs.size) : (segment xs first past).head? = some xs[first] := by
  rw [segment_cons h hx, List.head?_cons]

theorem segment_getLast? {xs : Array α} {first past : Nat} (h : first < past)
    (hx : past ≤ xs.size) : (segment xs first past).getLast? = some xs[past - 1] := by
  have hlast : segment xs (past - 1) past = [xs[past - 1]] := by
    rw [segment_cons (by omega) (by omega), segment_of_past_le xs (by omega)]
  rw [← segment_append xs (by omega : first ≤ past - 1) (by omega), hlast, List.getLast?_concat]

/-- Positions past the end of the array add nothing. -/
theorem segment_min_size (xs : Array α) (first past : Nat) :
    segment xs first (min past xs.size) = segment xs first past := by
  rcases Nat.le_total past xs.size with h | h
  · rw [Nat.min_eq_left h]
  · rw [Nat.min_eq_right h]
    simp only [segment]
    rw [List.take_of_length_le (by simp), List.take_of_length_le (by simp; omega)]

/-- A start past the end of the array may be moved to it. -/
theorem segment_min_start (xs : Array α) (first past : Nat) :
    segment xs (min first xs.size) past = segment xs first past := by
  rcases Nat.le_total first xs.size with h | h
  · rw [Nat.min_eq_left h]
  · rw [Nat.min_eq_right h, segment_of_size_le past h, segment_of_size_le past (Nat.le_refl _)]

theorem segment_all {xs : Array α} {past : Nat} (h : xs.size ≤ past) :
    segment xs 0 past = xs.toList := by
  rw [segment, List.drop_zero, List.take_of_length_le (by simpa using h)]

/-- A part of an array is found again by the number of elements before it. -/
theorem segment_of_toList_eq {xs : Array α} {before part behind : List α}
    (h : xs.toList = before ++ part ++ behind) :
    segment xs before.length (before.length + part.length) = part := by
  rw [segment, h, List.append_assoc, List.drop_left, Nat.add_sub_cancel_left, List.take_left]

/-- An array is cut into the elements before a position and those from it on. -/
theorem extract_append_rest (xs : Array α) (n : Nat) :
    xs.extract 0 n ++ xs.extract n xs.size = xs := by
  rw [Array.extract_append_extract, Nat.min_eq_left (Nat.zero_le n)]
  exact Array.extract_eq_self_of_le (Nat.le_max_right n xs.size)

theorem toList_overwrite (dst : Array α) (k : Nat) (xs : List α) :
    (overwrite dst k xs).toList = dst.toList.take k ++ xs ++ dst.toList.drop (k + xs.length) := rfl

@[simp] theorem size_overwrite {dst : Array α} {k : Nat} {xs : List α}
    (h : k + xs.length ≤ dst.size) : (overwrite dst k xs).size = dst.size := by
  simp only [overwrite, List.size_toArray, List.length_append, List.length_take, List.length_drop,
    Array.length_toList]
  omega

@[simp] theorem overwrite_nil (dst : Array α) (k : Nat) : overwrite dst k [] = dst := by
  simp [overwrite]

theorem set_eq_overwrite {dst : Array α} {k : Nat} (h : k < dst.size) (x : α) :
    dst.set k x h = overwrite dst k [x] := by
  apply Array.toList_inj.mp
  rw [Array.toList_set, toList_overwrite, List.set_eq_take_append_cons_drop,
    if_pos (by simpa using h)]
  simp

/-- Two writes, the second where the first one ends, are one. -/
theorem overwrite_overwrite {dst : Array α} {k : Nat} (xs ys : List α)
    (h : k + xs.length ≤ dst.size) :
    overwrite (overwrite dst k xs) (k + xs.length) ys = overwrite dst k (xs ++ ys) := by
  apply Array.toList_inj.mp
  have hlen : (dst.toList.take k ++ xs).length = k + xs.length := by simp; omega
  have htail : (dst.toList.take k ++ xs ++ dst.toList.drop (k + xs.length)).drop
      (k + xs.length + ys.length) = dst.toList.drop (k + (xs ++ ys).length) := by
    rw [← List.drop_drop, List.drop_left' hlen, List.drop_drop, List.length_append, Nat.add_assoc]
  rw [toList_overwrite, toList_overwrite, toList_overwrite, htail, List.take_left' hlen]
  simp only [List.append_assoc]

theorem overwrite_cons {dst : Array α} {k : Nat} (x : α) (ys : List α) (h : k < dst.size) :
    overwrite (overwrite dst k [x]) (k + 1) ys = overwrite dst k (x :: ys) :=
  overwrite_overwrite [x] ys h

/-- A write of as many elements as there are slots leaves nothing of the old array. -/
theorem overwrite_all {dst : Array α} {xs : List α} (h : xs.length = dst.size) :
    overwrite dst 0 xs = xs.toArray := by
  apply Array.toList_inj.mp
  rw [toList_overwrite, List.drop_eq_nil_of_le (by simp [h])]
  simp

/-- What is read where a list was written is a part of that list. -/
theorem segment_overwrite {dst : Array α} {k : Nat} {xs : List α} (hk : k ≤ dst.size) {a b : Nat}
    (ha : k ≤ a) (hb : b ≤ k + xs.length) :
    segment (overwrite dst k xs) a b = segment xs.toArray (a - k) (b - k) := by
  have hlength : (dst.toList.take k).length = k := by
    rw [List.length_take, Array.length_toList, Nat.min_eq_left hk]
  have hdrop : (overwrite dst k xs).toList.drop a =
      (xs ++ dst.toList.drop (k + xs.length)).drop (a - k) := by
    rw [toList_overwrite, List.append_assoc, ← Nat.add_sub_cancel' ha, ← List.drop_drop,
      List.drop_left' hlength, Nat.add_sub_cancel_left]
  have hcount : b - k - (a - k) = b - a := by omega
  rw [segment, segment, hdrop, hcount]
  rcases Nat.le_total b a with hba | hab
  · rw [Nat.sub_eq_zero_of_le hba, List.take_zero, List.take_zero]
  · rw [List.drop_append_of_le_length (by omega), List.take_append_of_le_length (by
      rw [List.length_drop]
      omega)]

theorem segment_overwrite_self {dst : Array α} {k : Nat} {xs : List α} (hk : k ≤ dst.size) :
    segment (overwrite dst k xs) k (k + xs.length) = xs := by
  rw [segment_overwrite hk (Nat.le_refl k) (Nat.le_refl _), Nat.sub_self, Nat.add_sub_cancel_left]
  exact segment_all (Nat.le_of_eq List.size_toArray)

/-- What was not written is as it was. -/
theorem getElem?_overwrite_of_outside {dst : Array α} {k : Nat} {xs : List α}
    (h : k + xs.length ≤ dst.size) {i : Nat} (hi : i < k ∨ k + xs.length ≤ i) :
    (overwrite dst k xs)[i]? = dst[i]? := by
  have hlength : (dst.toList.take k ++ xs).length = k + xs.length := by
    rw [List.length_append, List.length_take, Array.length_toList, Nat.min_eq_left (by omega)]
  rw [← Array.getElem?_toList, ← Array.getElem?_toList, toList_overwrite]
  rcases hi with hbefore | hbehind
  · rw [List.append_assoc, List.getElem?_append_left (by simp; omega),
      List.getElem?_take_of_lt hbefore]
  · rw [List.getElem?_append_right (by omega), hlength, List.getElem?_drop,
      Nat.add_sub_cancel' hbehind]

theorem fetch_eq_ok_iff {xs : Array α} {i : Nat} {x : α} :
    fetch xs i = .ok x ↔ ∃ h : i < xs.size, xs[i] = x := by
  rcases Nat.lt_or_ge i xs.size with hi | hi
  · simp [hi]
  · simp [fetch_of_le hi, Nat.not_lt.mpr hi]

theorem store_eq_ok_iff {xs ys : Array α} {i : Nat} {x : α} :
    store xs i x = .ok ys ↔ i < xs.size ∧ overwrite xs i [x] = ys := by
  rcases Nat.lt_or_ge i xs.size with hi | hi
  · simp [hi, set_eq_overwrite]
  · simp [store_of_le hi, Nat.not_lt.mpr hi]

theorem inRange_eq_ok_iff {first past size : Nat} {u : Unit} :
    inRange first past size = .ok u ↔ first ≤ past ∧ past ≤ size := by
  unfold inRange
  split <;> simp [*]

/-- A copy of one slot after the other succeeds exactly when both ranges fit. -/
theorem transfer_eq_ok_iff {src dst out : Array α} {count i k : Nat} :
    transfer src count i dst k = .ok out ↔
      (0 < count → i + count ≤ src.size ∧ k + count ≤ dst.size) ∧
        overwrite dst k (segment src i (i + count)) = out := by
  induction count generalizing i dst k with
  | zero => simp [transfer, segment_of_past_le]
  | succ count ih =>
    by_cases h : i < src.size ∧ k < dst.size
    · obtain ⟨hi, hk⟩ := h
      have hs : (overwrite dst k [src[i]]).size = dst.size := size_overwrite hk
      rw [transfer, fetch_of_lt hi, Checked.ok_bind, store_of_lt hk, Checked.ok_bind,
        set_eq_overwrite hk, ih, hs, overwrite_cons _ _ hk, segment_cons (by omega) hi,
        show i + 1 + count = i + (count + 1) by omega]
      have hfits : (0 < count → i + (count + 1) ≤ src.size ∧ k + 1 + count ≤ dst.size) ↔
          (0 < count + 1 → i + (count + 1) ≤ src.size ∧ k + (count + 1) ≤ dst.size) := by omega
      rw [hfits]
    · constructor
      · intro hok
        rw [transfer, Checked.bind_eq_ok_iff] at hok
        obtain ⟨x, hx, hok⟩ := hok
        obtain ⟨dst', hd, -⟩ := Checked.bind_eq_ok_iff.mp hok
        exact absurd ⟨(fetch_eq_ok_iff.mp hx).1, (store_eq_ok_iff.mp hd).1⟩ h
      · rintro ⟨hfits, -⟩
        have := hfits (by omega)
        omega

/-- In an array whose size is a machine word, a copy of ranges succeeds exactly when both lie in
their arrays. -/
theorem copyRange_eq_ok_iff {src dst out : Array α} {first past k : Nat}
    (hword : dst.size < Word.limit) :
    copyRange src dst first past k = .ok out ↔
      (first ≤ past ∧ past ≤ src.size ∧ k + (past - first) ≤ dst.size) ∧
        overwrite dst k (segment src first past) = out := by
  simp only [copyRange, Checked.bind_eq_ok_iff, Word.fits_eq_ok_iff, inRange_eq_ok_iff,
    exists_const, transfer_eq_ok_iff]
  constructor
  · rintro ⟨-, ⟨-, hk⟩, ⟨hfirst, hpast⟩, -, rfl⟩
    exact ⟨⟨hfirst, hpast, hk⟩, by rw [Nat.add_sub_cancel' hfirst]⟩
  · rintro ⟨⟨hfirst, hpast, hk⟩, rfl⟩
    exact ⟨by omega, by omega, by omega, by omega, by rw [Nat.add_sub_cancel' hfirst]⟩

end Slots

def block (xs : Array α) (w t : Nat) : List α := Slots.segment xs (t * w) ((t + 1) * w)

/-- The number of blocks of width `w` in `n` elements, the last of which may be short. -/
def blockCount (n w : Nat) : Nat := (n + (w - 1)) / w

theorem lt_blockCount_iff {n w t : Nat} (hw : 0 < w) : t < blockCount n w ↔ t * w < n := by
  have h : t + 1 ≤ blockCount n w ↔ (t + 1) * w ≤ n + (w - 1) := Nat.le_div_iff_mul_le hw
  rw [Nat.add_one_mul] at h
  omega

theorem length_block (xs : Array α) (w t : Nat) :
    (block xs w t).length = min ((t + 1) * w) xs.size - t * w :=
  Slots.length_segment _ _ _

theorem length_block_le (xs : Array α) (w t : Nat) : (block xs w t).length ≤ w := by
  have h := Nat.add_one_mul t w
  rw [length_block]
  omega

theorem length_block_of_full {xs : Array α} {w t : Nat} (h : (t + 1) * w ≤ xs.size) :
    (block xs w t).length = w := by
  have hnext := Nat.add_one_mul t w
  rw [length_block]
  omega

theorem block_double (xs : Array α) (w t : Nat) :
    block xs w (2 * t) ++ block xs w (2 * t + 1) = block xs (2 * w) t := by
  have hstart : t * (2 * w) = 2 * t * w := by rw [Nat.mul_left_comm, Nat.mul_assoc]
  have hend : (t + 1) * (2 * w) = (2 * t + 1 + 1) * w := by
    rw [Nat.mul_left_comm, ← Nat.mul_assoc]
    rfl
  rw [block, block, block, hstart, hend]
  exact Slots.segment_append xs (Nat.mul_le_mul_right w (by omega))
    (Nat.mul_le_mul_right w (by omega))

theorem block_of_size_le {xs : Array α} {w t : Nat} (h : xs.size ≤ t * w) : block xs w t = [] :=
  Slots.segment_of_size_le _ h

theorem block_whole {xs : Array α} {w : Nat} (h : xs.size ≤ w) : block xs w 0 = xs.toList := by
  rw [block, Nat.zero_mul, Nat.zero_add, Nat.one_mul, Slots.segment_all h]

/-- Runs of `w` elements, one behind the other from position `a` on, are one segment. -/
theorem flatMap_segment (xs : Array α) (a w m : Nat) :
    (List.range m).flatMap (fun t => Slots.segment xs (a + t * w) (a + (t + 1) * w)) =
      Slots.segment xs a (a + m * w) := by
  induction m with
  | zero => simp [Slots.segment_of_past_le]
  | succ m ih =>
    have hnext := Nat.add_one_mul m w
    rw [List.range_succ, List.flatMap_append, ih, List.flatMap_singleton]
    exact Slots.segment_append xs (by omega) (by omega)

/-- The first `m` blocks are the elements before position `m * w`. -/
theorem flatMap_block (xs : Array α) (w m : Nat) :
    (List.range m).flatMap (block xs w) = Slots.segment xs 0 (m * w) := by
  have h := flatMap_segment xs 0 w m
  simp only [Nat.zero_add] at h
  exact h

/-- All blocks together are the array. -/
theorem flatMap_blocks {xs : Array α} {w : Nat} (hw : 0 < w) :
    (List.range (blockCount xs.size w)).flatMap (block xs w) = xs.toList := by
  have h : ¬blockCount xs.size w * w < xs.size := fun h => by
    have := (lt_blockCount_iff hw).mpr h
    omega
  rw [flatMap_block, Slots.segment_all (by omega)]

theorem length_flatMap_range {f : Nat → List α} {m w : Nat} (h : ∀ t < m, (f t).length = w) :
    ((List.range m).flatMap f).length = m * w := by
  induction m with
  | zero => simp
  | succ m ih =>
    rw [List.range_succ, List.flatMap_append, List.length_append, ih fun t ht => h t (by omega),
      List.flatMap_singleton, h m (by omega), Nat.add_one_mul]

/-- A row of pieces, all but the last of which fill their block, is read block by block. -/
theorem block_of_flatMap {xs : Array α} {f : Nat → List α} {m w : Nat}
    (hxs : xs.toList = (List.range m).flatMap f) (hfull : ∀ t, t + 1 < m → (f t).length = w)
    (hlast : ∀ t < m, (f t).length ≤ w) {t : Nat} (ht : t < m) : block xs w t = f t := by
  obtain ⟨rest, rfl⟩ : ∃ rest, m = t + (1 + rest) := ⟨m - t - 1, by omega⟩
  have hwidth : (t + 1) * w - t * w = w := by rw [Nat.add_one_mul]; omega
  have hbefore : ((List.range t).flatMap f).length = t * w :=
    length_flatMap_range fun s hs => hfull s (by omega)
  rw [block, Slots.segment, hxs, hwidth, List.range_add, List.flatMap_append,
    List.drop_left' hbefore]
  cases rest with
  | zero => simp [List.take_of_length_le (hlast t ht)]
  | succ rest =>
    have hfull := hfull t (by omega)
    rw [List.range_add, List.map_append, List.flatMap_append]
    simp [List.take_append_of_le_length (Nat.le_of_eq hfull.symm),
      List.take_of_length_le (Nat.le_of_eq hfull)]

end RunMerge
