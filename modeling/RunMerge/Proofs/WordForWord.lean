import Mathlib.Algebra.Group.Int.Defs
import RunMerge.Dataset
import RunMerge.Proofs.DrawnIndex

/-!
# One word for one element

A uniform element is a word, and so is one of few distinct elements: an index below sixteen is the four
highest bits of a word, for scaling leaves a multiple of sixteen, which is never so large that a second
word could carry. A dataset of either kind takes as many words as it has elements and reads each element
off its own word. So it can be made in one go or in parts, with the same elements and the same words
left.
-/

namespace RunMerge

open Draw (Stream WordSource)

variable {σ : Type} [WordSource σ]

namespace Dataset

def signed (w : UInt32) : Int := if w.toNat < 2 ^ 31 then w.toNat else w.toNat - 2 ^ 32

/-- The multiple of seventeen that the four highest bits of a word select. -/
def selected (w : UInt32) : Int := 17 * ((w.toNat >>> 28 : Nat) : Int)

structure WordForWord (read : UInt32 → Int) (size : Nat) (s : Stream) (xs : Array Int32) (t : Stream) :
    Prop where
  elements : xs.toList.map Int32.toInt = (List.range size).map fun i => read (s.word (s.used + i))
  word_eq : t.word = s.word
  used_eq : t.used = s.used + size

/-- A dataset of `m + n` elements is one of `m` elements with one of `n` elements behind, and leaves the
source where these two leave it. -/
def Splits (distribution : Distribution) (m n : Nat) (s : σ) : Prop :=
  ∃ xs ys t u, generate distribution m s = .ok (xs, t) ∧ generate distribution n t = .ok (ys, u) ∧
    generate distribution (m + n) s = .ok (xs ++ ys, u)

def readOff (value : UInt32 → Int32) (size : Nat) (s : σ) : List Int32 :=
  (List.range size).map fun i => value (WordSource.ahead i s)

/-- On every source, a dataset of this kind is read off as many words as it has elements. -/
def ReadsOff (distribution : Distribution) (value : UInt32 → Int32) : Prop :=
  ∀ (σ : Type) [WordSource σ] (size : Nat) (s : σ),
    generate distribution size s = .ok ((readOff value size s).toArray, WordSource.skip size s)

def ofSixteenth (w : UInt32) : Int32 := Int32.ofNat (w.toNat >>> 28) * 17

end Dataset

open Draw.WordSource (ahead skip ahead_skip skip_add skip_succ)

namespace Draw

/-- Scaling to sixteen leaves a multiple of sixteen, which stays that much below the next whole. -/
theorem not_mayCarry_sixteen (u : Nat) : ¬mayCarry wordCount 16 u := by
  rw [mayCarry_iff, wordCount_eq]
  omega

theorem scaledWhole_sixteen (u : Nat) : scaledWhole wordCount 16 u = u >>> 28 := by
  rw [scaledWhole, Nat.shiftRight_eq_div_pow, wordCount_eq]
  omega

/-- An index below sixteen is the four highest bits of one word. -/
theorem index_sixteen (s : σ) : index 16 s = ((ahead 0 s).toNat >>> 28, skip 1 s) := by
  rw [index_of_not_mayCarry (by decide) (not_mayCarry_sixteen _), scaledWhole_sixteen]

end Draw

namespace Dataset

variable {distribution : Distribution} {value : UInt32 → Int32} {draw : σ → Int32 × σ}

theorem readOff_succ (value : UInt32 → Int32) (size : Nat) (s : σ) :
    readOff value (size + 1) s = value (ahead 0 s) :: readOff value size (skip 1 s) := by
  simp [readOff, List.range_succ_eq_map, ahead_skip, Nat.add_comm]

theorem readOff_add (value : UInt32 → Int32) (m n : Nat) (s : σ) :
    readOff value (m + n) s = readOff value m s ++ readOff value n (skip m s) := by
  simp [readOff, List.range_add, ahead_skip]

/-- Where one draw reads one word, so many draws read the words one after the other. -/
theorem fill_eq (hdraw : ∀ s, draw s = (value (ahead 0 s), skip 1 s)) (count : Nat) (xs : Array Int32)
    (s : σ) : fill draw count xs s = (xs ++ (readOff value count s).toArray, skip count s) := by
  induction count generalizing xs s with
  | zero => simp [fill, readOff, skip]
  | succ count ih =>
    rw [readOff_succ, skip_succ count]
    simp [fill, hdraw, ih]

theorem uniform_readsOff : ReadsOff .uniform UInt32.toInt32 := by
  intro σ _ size s
  have hdraw : ∀ s : σ, drawAny s = ((ahead 0 s).toInt32, skip 1 s) := fun _ => rfl
  simp [generate, fill_eq hdraw]

theorem fewDistinct_readsOff : ReadsOff .fewDistinct ofSixteenth := by
  intro σ _ size s
  have hdraw : ∀ s : σ, drawFew s = (ofSixteenth (ahead 0 s), skip 1 s) := by
    intro s
    rw [drawFew, Draw.index_sixteen]
    rfl
  simp [generate, fill_eq hdraw]

theorem toInt_toInt32 (w : UInt32) : w.toInt32.toInt = signed w := by
  show BitVec.toInt w.toBitVec = signed w
  simp only [BitVec.toInt, signed, UInt32.toNat_toBitVec]
  split <;> split <;> omega

theorem sixteenth_lt (w : UInt32) : w.toNat >>> 28 < 16 := by
  have := w.toNat_lt
  rw [Nat.shiftRight_eq_div_pow]
  omega

theorem toInt_ofSixteenth (w : UInt32) : (ofSixteenth w).toInt = selected w := by
  have hmul : ∀ k < 16, (Int32.ofNat k * 17).toInt = 17 * (k : Int) := by decide
  exact hmul _ (sixteenth_lt w)

theorem ReadsOff.wordForWord {read : UInt32 → Int} (h : ReadsOff distribution value)
    (hread : ∀ w, (value w).toInt = read w) (size : Nat) (s : Stream) :
    ∃ xs t, generate distribution size s = .ok (xs, t) ∧ WordForWord read size s xs t := by
  refine ⟨_, _, h Stream size s, ?_⟩
  constructor <;> simp [readOff, hread]

theorem ReadsOff.splits (h : ReadsOff distribution value) (m n : Nat) (s : σ) :
    Splits distribution m n s := by
  refine ⟨_, _, _, _, h σ m s, h σ n (skip m s), ?_⟩
  rw [h, readOff_add, skip_add, List.append_toArray]

theorem WordForWord.exists_read {read : UInt32 → Int} {size : Nat} {s t : Stream} {xs : Array Int32}
    (h : WordForWord read size s xs t) {x : Int32} (hx : x ∈ xs) : ∃ w, x.toInt = read w := by
  have hmem : x.toInt ∈ xs.toList.map Int32.toInt := List.mem_map_of_mem hx.val
  rw [h.elements] at hmem
  obtain ⟨i, -, hi⟩ := List.mem_map.mp hmem
  exact ⟨_, hi.symm⟩

/-- Few distinct elements and uniform ones are read off a word each, so a dataset can be cut anywhere.
An index below sixteen is drawn as `Stream.shiftDraw` says, which here never looks at a second word. -/
theorem draws_word_for_word (size m n : Nat) (s : Stream) (g : σ) :
    (∃ xs t, generate .fewDistinct size s = .ok (xs, t) ∧ WordForWord selected size s xs t ∧
        ∀ x ∈ xs, ∃ k < 16, x.toInt = 17 * (k : Nat)) ∧
      (∃ xs t, generate .uniform size s = .ok (xs, t) ∧ WordForWord signed size s xs t) ∧
      Splits .fewDistinct m n g ∧ Splits .uniform m n g ∧
      Draw.index 16 s = s.shiftDraw 16 ∧
      s.shiftDraw 16 = ((s.word s.used).toNat >>> 28, ⟨s.word, s.used + 1⟩) := by
  refine ⟨?_, ?_, ?_, ?_, ?_, ?_⟩
  · obtain ⟨xs, t, hrun, hread⟩ := fewDistinct_readsOff.wordForWord toInt_ofSixteenth size s
    refine ⟨xs, t, hrun, hread, fun x hx => ?_⟩
    obtain ⟨w, hw⟩ := hread.exists_read hx
    exact ⟨w.toNat >>> 28, sixteenth_lt w, hw⟩
  · exact uniform_readsOff.wordForWord toInt_toInt32 size s
  · exact fewDistinct_readsOff.splits m n g
  · exact uniform_readsOff.splits m n g
  · exact s.index_eq_shiftDraw (by decide)
  · rw [← s.index_eq_shiftDraw (by decide), Draw.index_sixteen, Stream.ahead_eq, Stream.skip_eq, Nat.add_zero]

/-- Two elements, read off the largest word and off the largest one whose four highest bits are zero. -/
theorem draws_word_for_word_two :
    ∃ xs t, generate .fewDistinct 2 (Stream.start fun i => if i = 0 then 0xFFFFFFFF else 0xFFFFFFF) =
        .ok (xs, t) ∧
      xs = #[255, 0] ∧ t.used = 2 ∧ (255 : Int32) ∈ xs ∧ ∃ k < 16, (255 : Int32).toInt = 17 * (k : Nat) := by
  obtain ⟨xs, t, hrun, hread, hmultiple⟩ := (draws_word_for_word 2 1 1
    (Stream.start fun i => if i = 0 then 0xFFFFFFFF else 0xFFFFFFF) (Stream.start fun _ => 0)).1
  have hxs : xs = #[255, 0] := by
    cases hrun
    decide
  have hmem : (255 : Int32) ∈ xs := by simp [hxs]
  exact ⟨xs, t, hrun, hxs, hread.used_eq, hmem, hmultiple 255 hmem⟩

end Dataset

end RunMerge
