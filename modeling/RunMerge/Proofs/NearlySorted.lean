import Mathlib.Algebra.Group.Nat.Defs
import Mathlib.Data.Finset.Card
import Mathlib.Data.Finset.Insert
import RunMerge.Dataset
import RunMerge.Proofs.DrawnIndex

/-!
# Nearly sorted datasets

A nearly sorted dataset is the numbers from zero on after a few exchanges of drawn slots. An exchange
moves two elements at most, whether the two slots are equal or have been drawn before, and rearranges
the array. It takes two draws, and so two words at least and four at most. All of it is carried
through the exchanges one by one.
-/

namespace RunMerge

namespace Dataset

open Draw (Stream WordSource)

def displaced (xs : Array Int32) : Finset Nat :=
  (Finset.range xs.size).filter fun i => xs[i]?.map Int32.toInt ≠ some (i : Int)

structure Exchanged (count : Nat) (xs ys : Array Int32) : Prop where
  perm : ys.Perm xs
  card_le : (displaced ys).card ≤ (displaced xs).card + 2 * count

structure NearlySorted (size : Nat) (s : Stream) (xs : Array Int32) (t : Stream) : Prop where
  perm : (xs.toList.map Int32.toInt).Perm ((List.range size).map Nat.cast)
  displaced_le : (displaced xs).card ≤ 2 * max 1 (size / 100)
  word_eq : t.word = s.word
  used_ge : 0 < size → s.used + 2 * max 1 (size / 100) ≤ t.used
  used_le : 0 < size → t.used ≤ s.used + 2 * (2 * max 1 (size / 100))
  used_eq : size = 0 → t.used = s.used

variable {xs ys zs : Array Int32} {a b i m n : Nat}

theorem mem_displaced : i ∈ displaced xs ↔ i < xs.size ∧ xs[i]?.map Int32.toInt ≠ some (i : Int) := by
  simp [displaced]

namespace Exchanged

theorem refl (xs : Array Int32) : Exchanged 0 xs xs := ⟨.refl xs, Nat.le_refl _⟩

theorem trans (h : Exchanged m xs ys) (h' : Exchanged n ys zs) : Exchanged (m + n) xs zs where
  perm := h'.perm.trans h.perm
  card_le := by
    have := h.card_le
    have := h'.card_le
    omega

/-- An exchange touches no slots but its own two. -/
theorem swap (ha : a < xs.size) (hb : b < xs.size) : Exchanged 1 xs (xs.swap a b ha hb) where
  perm := Array.swap_perm ha hb
  card_le := by
    have hsub : displaced (xs.swap a b ha hb) ⊆ insert a (insert b (displaced xs)) := by
      intro i hi
      rw [mem_displaced, Array.size_swap, Array.getElem?_swap] at hi
      rw [Finset.mem_insert, Finset.mem_insert, mem_displaced]
      by_cases hib : b = i
      · exact .inr (.inl hib.symm)
      · by_cases hia : a = i
        · exact .inl hia.symm
        · rw [if_neg hib, if_neg hia] at hi
          exact .inr (.inr hi)
    calc (displaced (xs.swap a b ha hb)).card
        ≤ (insert a (insert b (displaced xs))).card := Finset.card_le_card hsub
      _ ≤ (insert b (displaced xs)).card + 1 := Finset.card_insert_le _ _
      _ ≤ (displaced xs).card + 1 + 1 := Nat.succ_le_succ (Finset.card_insert_le _ _)

theorem size_eq (h : Exchanged n xs ys) : ys.size = xs.size := h.perm.size_eq

end Exchanged

section Sources

variable {σ : Type} [WordSource σ]

/-- Drawn slots are slots of the array, so every exchange of a shuffle takes place. -/
theorem shuffle_eq_ok {count : Nat} (hpos : 0 < xs.size) (s : σ) :
    ∃ ys t, shuffle count xs s = .ok (ys, t) ∧ Exchanged count xs ys := by
  induction count generalizing xs s with
  | zero => exact ⟨xs, s, rfl, .refl xs⟩
  | succ count ih =>
    have ha := Draw.index_lt hpos s
    have hb := Draw.index_lt hpos (Draw.index xs.size s).2
    have hswap := Exchanged.swap ha hb
    obtain ⟨ys, t, hrun, hys⟩ := @ih (xs.swap _ _ ha hb) (by rwa [hswap.size_eq])
      (Draw.index xs.size (Draw.index xs.size s).2).2
    refine ⟨ys, t, ?_, ?_⟩
    · rwa [shuffle_succ, Slots.exchange_of_lt ha hb, Checked.ok_bind]
    · rw [Nat.add_comm]
      exact hswap.trans hys

end Sources

/-- Each exchange of a shuffle takes from two to four words. -/
theorem used_of_shuffle {count : Nat} {s t : Stream} (hpos : 0 < xs.size)
    (hsize : xs.size < Draw.wordCount) (h : shuffle count xs s = .ok (ys, t)) :
    t.word = s.word ∧ s.used + 2 * count ≤ t.used ∧ t.used ≤ s.used + 4 * count := by
  induction count generalizing xs s with
  | zero =>
    cases h
    simp
  | succ count ih =>
    have ha := Draw.index_lt hpos s
    have hb := Draw.index_lt hpos (Draw.index xs.size s).2
    rw [shuffle_succ, Slots.exchange_of_lt ha hb, Checked.ok_bind] at h
    obtain ⟨hword, hleast, hmost⟩ := ih (by rwa [Array.size_swap]) (by rwa [Array.size_swap]) h
    have hfirst := Stream.used_of_index hsize s
    have hsecond := Stream.used_of_index hsize (Draw.index xs.size s).2
    exact ⟨hword.trans (hsecond.1.trans hfirst.1), by omega, by omega⟩

theorem getElem?_ascending {size : Nat} (hsize : size ≤ 2 ^ 31) (hi : i < size) :
    (ascending size)[i]?.map Int32.toInt = some (i : Int) := by
  have hlt : i < 2 ^ 31 := Nat.lt_of_lt_of_le hi hsize
  simp [ascending, hi, Int32.toInt_ofNat_of_lt hlt]

theorem displaced_ascending {size : Nat} (hsize : size ≤ 2 ^ 31) : displaced (ascending size) = ∅ := by
  refine Finset.filter_eq_empty_iff.mpr fun i hi => ?_
  have hlt : i < size := by simpa using hi
  exact not_not.mpr (getElem?_ascending hsize hlt)

theorem toInt_ascending {size : Nat} (hsize : size ≤ 2 ^ 31) :
    (ascending size).toList.map Int32.toInt = (List.range size).map Nat.cast := by
  apply List.ext_getElem?
  intro i
  by_cases hi : i < size
  · have h := getElem?_ascending hsize hi
    simpa [hi] using h
  · simp [ascending, hi]

/-- The numbers below a size, after exchanges, in the terms of the size. -/
theorem NearlySorted.of_exchanged {size : Nat} {s t : Stream} (hpos : 0 < size)
    (hsize : size ≤ 2 ^ 31) (hxs : Exchanged (exchanges size) (ascending size) xs)
    (hrun : shuffle (exchanges size) (ascending size) s = .ok (xs, t)) : NearlySorted size s xs t := by
  have hwords : size < Draw.wordCount := Nat.lt_of_le_of_lt hsize (by decide)
  obtain ⟨hword, hleast, hmost⟩ :=
    used_of_shuffle (by rwa [size_ascending]) (by rwa [size_ascending]) hrun
  have hcard := hxs.card_le
  rw [displaced_ascending hsize, Finset.card_empty] at hcard
  rw [exchanges_of_pos hpos] at hleast hmost hcard
  constructor
  · rw [← toInt_ascending hsize]
    exact hxs.perm.toList.map Int32.toInt
  · omega
  · exact hword
  · exact fun _ => hleast
  · exact fun _ => by omega
  · exact fun hzero => absurd hzero (Nat.pos_iff_ne_zero.mp hpos)

/-- Without numbers there is nothing to exchange and nothing to draw. -/
theorem NearlySorted.zero (s : Stream) : NearlySorted 0 s (ascending 0) s := by
  constructor <;> simp [ascending, displaced]

/-- Whatever words are drawn, no exchange leaves the array: a nearly sorted dataset holds the numbers
below its size, all but a few of them in their own slots. Each index is drawn as `Stream.shiftDraw` says. -/
theorem nearlySorted_permutes_range (size : Nat) (s : Stream) (hsize : size ≤ 2 ^ 31) :
    (∃ xs t, generate .nearlySorted size s = .ok (xs, t) ∧ NearlySorted size s xs t) ∧
      ∀ r : Stream, Draw.index size r = r.shiftDraw size := by
  refine ⟨?_, Stream.index_eq_shiftDraw (Nat.lt_of_le_of_lt hsize (by decide))⟩
  rcases Nat.eq_zero_or_pos size with rfl | hpos
  · exact ⟨ascending 0, s, rfl, .zero s⟩
  · obtain ⟨xs, t, hrun, hxs⟩ : ∃ xs t, shuffle (exchanges size) (ascending size) s = .ok (xs, t) ∧
        Exchanged (exchanges size) (ascending size) xs :=
      shuffle_eq_ok (by rwa [size_ascending]) s
    exact ⟨xs, t, hrun, .of_exchanged hpos hsize hxs hrun⟩

/-- A stream on which every draw takes a second word, and that word carries. -/
theorem nearlySorted_permutes_range_carrying :
    250 ≤ 2 ^ 31 ∧
      (∃ xs t, generate .nearlySorted 250
          (Stream.start fun i => if i % 2 = 0 then 17179869 else 0xFFFFFFFF) = .ok (xs, t) ∧
        NearlySorted 250 (Stream.start fun i => if i % 2 = 0 then 17179869 else 0xFFFFFFFF) xs t) ∧
      ∀ r : Stream, Draw.index 250 r = r.shiftDraw 250 :=
  ⟨by decide, nearlySorted_permutes_range 250 _ (by decide)⟩

end Dataset

end RunMerge
