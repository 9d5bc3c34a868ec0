import Mathlib.Algebra.Group.Nat.Defs
import Mathlib.Logic.Function.Iterate
import RunMerge.Checked
import RunMerge.Draw

/-!
# An index is a scaled pair of words

All that can be drawn from a source is a sequence of words, and two sources that go on with the same
words for a while cannot be told apart until then. A computation that only draws words is settled by
those it draws: on every source that goes on with them it gives the same result and stops behind them,
whatever would have come next.

A draw below `n` with the numbers `u` and `w` is the whole part of `u` scaled to `n`, raised by one where
the digits of `w` carry. The second number is left in the source when it cannot carry, so the draw is one
quotient of both numbers in either case, and a quotient that is below `n`. For words this quotient is
that of one number of 64 bits, the first word above the second, which is scaled to `n` exactly: the draw
adds up two products of 32 bits, and no digit of the long product is lost by that.
-/

namespace RunMerge.Draw

section Definitions

variable {σ τ α : Type} [WordSource σ] [WordSource τ]

namespace WordSource

/-- The source behind its next words. -/
def skip (count : Nat) (s : σ) : σ := (fun s => (next s).2)^[count] s

def ahead (i : Nat) (s : σ) : UInt32 := (next (skip i s)).1

end WordSource

def Agree (count : Nat) (s : σ) (t : τ) : Prop :=
  ∀ i < count, WordSource.ahead i s = WordSource.ahead i t

/-- The next words of a source settle what a computation gives, on this source and on every other one
that goes on with them. -/
def Settles (run : (τ : Type) → [WordSource τ] → τ → Checked (α × τ)) (s : σ) (count : Nat) (x : α) :
    Prop :=
  ∀ (τ : Type) [WordSource τ] (t : τ), Agree count s t → run τ t = .ok (x, WordSource.skip count t)

/-- A draw from a stream in shifts and remainders of products: `p` is the word times `n`, `q` the word
behind it times `n`. -/
def Stream.shiftDraw (n : Nat) (s : Stream) : Nat × Stream :=
  let p := (s.word s.used).toNat * n
  let q := (s.word (s.used + 1)).toNat * n
  if 2 ^ 32 - n < p % 2 ^ 32 then
    (p >>> 32 + if 2 ^ 32 ≤ p % 2 ^ 32 + q >>> 32 then 1 else 0, ⟨s.word, s.used + 2⟩)
  else
    (p >>> 32, ⟨s.word, s.used + 1⟩)

/-- The whole part of two words, taken as one of 64 bits and scaled to `n`. -/
def scaledPair (n : Nat) (u w : UInt32) : Nat := (u.toNat * 2 ^ 32 + w.toNat) * n / 2 ^ 64

/-- An index `i` that was drawn below `n` from a source `s`, where the words `u` and `w` are ahead, and the
source `t` as it is left: the index is the scaled pair, also if the draw has looked at one word only. It
looks at the second word where some second word raises the index. -/
structure ScaledDraw (n : Nat) (u w : UInt32) (s : σ) (i : Nat) (t : σ) : Prop where
  index_eq : i = scaledPair n u w
  index_lt : i < n
  rest_eq : t = if 2 ^ 32 - n < u.toNat * n % 2 ^ 32 then WordSource.skip 2 s else WordSource.skip 1 s
  of_one_word : u.toNat * n % 2 ^ 32 ≤ 2 ^ 32 - n → ∀ w', i = scaledPair n u w'
  of_two_words : 2 ^ 32 - n < u.toNat * n % 2 ^ 32 →
    ∃ w', scaledPair n u w' = scaledPair n u 0 + 1

end Definitions

open WordSource (next skip ahead)

section Words

variable {σ τ : Type} [WordSource σ] [WordSource τ] {s : σ} {t : τ}

namespace WordSource

theorem skip_succ (count : Nat) (s : σ) : skip (count + 1) s = skip count (skip 1 s) := rfl

theorem skip_add (m n : Nat) (s : σ) : skip (m + n) s = skip n (skip m s) := by
  rw [Nat.add_comm]
  exact Function.iterate_add_apply _ n m s

theorem ahead_skip (i count : Nat) (s : σ) : ahead i (skip count s) = ahead (count + i) s := by
  rw [ahead, ahead, skip_add]

end WordSource

namespace Stream

@[simp] theorem skip_eq (count : Nat) (s : Stream) : skip count s = ⟨s.word, s.used + count⟩ := by
  induction count generalizing s with
  | zero => rfl
  | succ count ih =>
    rw [WordSource.skip_succ, ih, Nat.add_comm count, ← Nat.add_assoc]
    rfl

@[simp] theorem ahead_eq (i : Nat) (s : Stream) : ahead i s = s.word (s.used + i) := by
  rw [ahead, skip_eq, next_eq]

theorem agree_start {word : Nat → UInt32} {count : Nat} (h : ∀ i < count, ahead i t = word i) :
    Agree count (start word) t := by
  intro i hi
  rw [h i hi, ahead_eq, start, Nat.zero_add]

end Stream

namespace Agree

theorem left {m n : Nat} (h : Agree (m + n) s t) : Agree m s t :=
  fun i hi => h i (Nat.lt_add_right n hi)

theorem right {m n : Nat} (h : Agree (m + n) s t) : Agree n (skip m s) (skip m t) := by
  intro i hi
  rw [WordSource.ahead_skip, WordSource.ahead_skip]
  exact h (m + i) (Nat.add_lt_add_left hi m)

end Agree

end Words

section Numbers

variable {count n u w : Nat}

theorem wordCount_eq : wordCount = 2 ^ 32 := rfl

/-- A number below `count` scaled to `n` is below `n`. -/
theorem scaledWhole_lt (hpos : 0 < n) (hu : u < count) : scaledWhole count n u < n :=
  Nat.div_lt_of_lt_mul (Nat.mul_lt_mul_of_pos_right hu hpos)

theorem mayCarry_iff : mayCarry count n u = true ↔ count - n < u * n % count := decide_eq_true_iff

theorem carries_iff :
    carries count n u w = true ↔ count ≤ u * n % count + scaledWhole count n w := decide_eq_true_iff

/-- The digits behind a number, put below it and scaled with it: what they add to the whole part is the
carry and no more. -/
theorem scaledWhole_add_carry (hpos : 0 < n) (hn : n ≤ count) (hw : w < count) (u : Nat) :
    (u * n + scaledWhole count n w) / count =
      scaledWhole count n u + if carries count n u w then 1 else 0 := by
  have hcount : 0 < count := Nat.lt_of_lt_of_le hpos hn
  have hwhole : scaledWhole count n w < count := Nat.lt_of_lt_of_le (scaledWhole_lt hpos hw) hn
  rw [Nat.add_div hcount, Nat.div_eq_of_lt hwhole, Nat.mod_eq_of_lt hwhole, Nat.add_zero]
  simp only [carries_iff]
  rfl

/-- A second number that is not drawn could not have carried, whatever it is. -/
theorem not_carries_of_not_mayCarry (hpos : 0 < n) (hn : n ≤ count) (h : mayCarry count n u = false)
    (hw : w < count) : carries count n u w = false := by
  have hwhole : scaledWhole count n w < n := scaledWhole_lt hpos hw
  have hrest : scaledRest count n u ≤ count - n := by simpa [mayCarry] using h
  simp only [carries, decide_eq_false_iff_not]
  omega

/-- The greatest number, scaled to `n`, is as much as a second number can add. So nothing below the bound
could carry, and all above it can. -/
theorem carries_of_mayCarry (hpos : 0 < n) (hn : n ≤ count) (h : mayCarry count n u = true) :
    carries count n u (count - 1) = true := by
  have hlast : (count - 1) * n + n = count * n := by
    rw [← Nat.succ_mul, Nat.succ_eq_add_one, Nat.sub_add_cancel (Nat.le_trans hpos hn)]
  have hwhole : n - 1 ≤ scaledWhole count n (count - 1) := by
    rw [scaledWhole, Nat.le_div_iff_mul_le (Nat.lt_of_lt_of_le hpos hn), Nat.sub_mul, Nat.one_mul,
      Nat.mul_comm n]
    omega
  rw [mayCarry_iff] at h
  rw [carries_iff]
  omega

theorem carries_zero (hcount : 0 < count) (n u : Nat) : carries count n u 0 = false := by
  have hrest : u * n % count < count := Nat.mod_lt _ hcount
  simpa [carries, scaledWhole, scaledRest] using hrest

end Numbers

section Sources

variable {σ : Type} {draw : σ → Nat × σ} {count n : Nat}

/-- A draw is a quotient of the next two numbers, also when it takes only the first. -/
theorem scaled_fst (hdraw : ∀ s, (draw s).1 < count) (hpos : 0 < n) (hn : n ≤ count) (s : σ) :
    (scaled draw count n s).1 =
      ((draw s).1 * n + scaledWhole count n (draw (draw s).2).1) / count := by
  rw [scaledWhole_add_carry hpos hn (hdraw _)]
  unfold scaled
  by_cases h : mayCarry count n (draw s).1
  · simp only [h, if_true]
    split <;> rfl
  · simp [h, not_carries_of_not_mayCarry hpos hn (Bool.eq_false_iff.mpr h) (hdraw _)]

/-- A draw below `n` is below `n`: no carry leads up to `n` itself. In a range that is larger than the
number of draws, the whole part is below `n` even when it is raised by one. -/
theorem scaled_lt (hdraw : ∀ s, (draw s).1 < count) (hpos : 0 < n) (s : σ) :
    (scaled draw count n s).1 < n := by
  have hu : (draw s).1 * n + n ≤ count * n := by
    rw [← Nat.succ_mul]
    exact Nat.mul_le_mul_right n (hdraw s)
  rcases Nat.lt_or_ge count n with hlarge | hn
  · have hwhole : scaledWhole count n (draw s).1 < n - 1 := by
      have hlast : count * (n - 1) + count = count * n := by
        rw [← Nat.mul_succ, Nat.succ_eq_add_one, Nat.sub_add_cancel hpos]
      apply Nat.div_lt_of_lt_mul
      omega
    have hle : (scaled draw count n s).1 ≤ scaledWhole count n (draw s).1 + 1 := by
      unfold scaled
      by_cases h : mayCarry count n (draw s).1
      · simp only [h, if_true]
        split <;> simp
      · simp [h]
    omega
  · have hw := scaledWhole_lt hpos (hdraw (draw s).2)
    rw [scaled_fst hdraw hpos hn]
    exact Nat.div_lt_of_lt_mul (Nat.lt_of_lt_of_le (Nat.add_lt_add_left hw _) hu)

variable [WordSource σ]

theorem drawWord_eq (s : σ) : drawWord s = ((ahead 0 s).toNat, skip 1 s) := rfl

theorem drawPair_eq (s : σ) :
    drawPair s = ((ahead 1 s).toNat * wordCount + (ahead 0 s).toNat, skip 2 s) := rfl

theorem drawWord_lt (s : σ) : (drawWord s).1 < wordCount := (ahead 0 s).toNat_lt

theorem drawPair_lt (s : σ) : (drawPair s).1 < pairCount := by
  have hlow := (ahead 0 s).toNat_lt
  have hhigh := (ahead 1 s).toNat_lt
  rw [drawPair_eq, wordCount_eq, show pairCount = 2 ^ 64 from rfl]
  omega

theorem index_of_lt (hn : n < wordCount) (s : σ) : index n s = scaled drawWord wordCount n s :=
  if_pos hn

theorem index_of_ge (hn : wordCount ≤ n) (s : σ) : index n s = scaled drawPair pairCount n s :=
  if_neg (Nat.not_lt.mpr hn)

theorem index_lt (hpos : 0 < n) (s : σ) : (index n s).1 < n := by
  rcases Nat.lt_or_ge n wordCount with hn | hn
  · rw [index_of_lt hn]
    exact scaled_lt drawWord_lt hpos s
  · rw [index_of_ge hn]
    exact scaled_lt drawPair_lt hpos s

/-- An index is settled by the numbers that are drawn for it, one or two, if these are settled by words. -/
theorem scaled_settled {draw : (τ : Type) → [WordSource τ] → τ → Nat × τ} {length : Nat}
    (hdraw : ∀ s : σ, ∃ u, Settles (fun τ _ t => .ok (draw τ t)) s length u) (s : σ) :
    ∃ taken i, Settles (fun τ _ t => .ok (scaled (draw τ) count n t)) s taken i := by
  obtain ⟨u, hu⟩ := hdraw s
  obtain ⟨w, hw⟩ := hdraw (skip length s)
  by_cases h : mayCarry count n u
  · refine ⟨length + length,
      if carries count n u w then scaledWhole count n u + 1 else scaledWhole count n u,
      fun τ _ t hst => congrArg Except.ok ?_⟩
    have hfirst : draw τ t = (u, skip length t) := Except.ok.inj (hu τ t hst.left)
    have hsecond : draw τ (skip length t) = (w, skip length (skip length t)) :=
      Except.ok.inj (hw τ _ hst.right)
    simp [scaled, hfirst, hsecond, h, WordSource.skip_add]
  · refine ⟨length, scaledWhole count n u, fun τ _ t hst => congrArg Except.ok ?_⟩
    have hfirst : draw τ t = (u, skip length t) := Except.ok.inj (hu τ t hst)
    simp [scaled, hfirst, h]

theorem index_settled (hpos : 0 < n) (s : σ) :
    ∃ taken, ∃ i < n, Settles (fun _ _ t => .ok (index n t)) s taken i := by
  have hword : ∀ s : σ, ∃ u, Settles (fun τ _ t => .ok (@drawWord τ _ t)) s 1 u := by
    refine fun s => ⟨(ahead 0 s).toNat, fun τ _ t hst => congrArg Except.ok ?_⟩
    rw [drawWord_eq, hst 0 (by decide)]
  have hpair : ∀ s : σ, ∃ u, Settles (fun τ _ t => .ok (@drawPair τ _ t)) s 2 u := by
    refine fun s => ⟨(ahead 1 s).toNat * wordCount + (ahead 0 s).toNat,
      fun τ _ t hst => congrArg Except.ok ?_⟩
    rw [drawPair_eq, hst 0 (by decide), hst 1 (by decide)]
  obtain ⟨taken, i, h⟩ : ∃ taken i, Settles (fun _ _ t => .ok (index n t)) s taken i := by
    rcases Nat.lt_or_ge n wordCount with hn | hn
    · simp only [index_of_lt hn]
      exact scaled_settled hword s
    · simp only [index_of_ge hn]
      exact scaled_settled hpair s
  have hself : index n s = (i, skip taken s) := Except.ok.inj (h σ s fun _ _ => rfl)
  have hlt := index_lt hpos s
  rw [hself] at hlt
  exact ⟨taken, i, hlt, h⟩

theorem index_of_mayCarry {s : σ} (hn : n < wordCount)
    (h : mayCarry wordCount n (ahead 0 s).toNat) :
    index n s = (if carries wordCount n (ahead 0 s).toNat (ahead 1 s).toNat then
      scaledWhole wordCount n (ahead 0 s).toNat + 1 else scaledWhole wordCount n (ahead 0 s).toNat,
      skip 2 s) := by
  rw [index_of_lt hn]
  exact if_pos h

theorem index_of_not_mayCarry {s : σ} (hn : n < wordCount)
    (h : ¬mayCarry wordCount n (ahead 0 s).toNat) :
    index n s = (scaledWhole wordCount n (ahead 0 s).toNat, skip 1 s) := by
  rw [index_of_lt hn]
  exact if_neg h

end Sources

namespace Stream

/-- Scaling a word splits its product with `n` into the digits above `2 ^ 32` and those below. -/
theorem index_eq_shiftDraw {n : Nat} (hn : n < wordCount) (s : Stream) :
    index n s = shiftDraw n s := by
  have hwhole (u : Nat) : scaledWhole (2 ^ 32) n u = (u * n) >>> 32 :=
    (Nat.shiftRight_eq_div_pow _ 32).symm
  rw [index_of_lt hn, wordCount_eq]
  simp only [scaled, drawWord, shiftDraw, next_eq, carries_iff, mayCarry_iff, hwhole]
  split
  · split <;> rfl
  · rfl

/-- The first word leaves so much that the second one carries. -/
example : (index 250 (start fun i => if i % 2 = 0 then 17179869 else 0xFFFFFFFF)).1 = 1 := by decide

/-- In a range that no word can cover, two words make the number, the higher digits second. -/
example : (index (2 ^ 32) (start fun i => if i = 0 then 0xFFFFFFFF else 7)).1 = 7 := by decide

/-- A draw below a word leaves the sequence as it is and moves on in it by one word or two. -/
theorem used_of_index {n : Nat} (hn : n < wordCount) (s : Stream) :
    (index n s).2.word = s.word ∧
      s.used + 1 ≤ (index n s).2.used ∧ (index n s).2.used ≤ s.used + 2 := by
  rw [index_of_lt hn]
  unfold scaled
  by_cases h : mayCarry wordCount n (s.word s.used).toNat <;> simp [drawWord, h]

end Stream

/-- Scaling both words at once or one after the other is the same: a quotient by `2 ^ 64` is taken in two
steps, and the first of them leaves the product with the upper word whole. -/
theorem scaledPair_eq (n : Nat) (u w : UInt32) :
    scaledPair n u w = (u.toNat * n + scaledWhole wordCount n w.toNat) / wordCount := by
  have hsplit : (u.toNat * 2 ^ 32 + w.toNat) * n = 2 ^ 32 * (u.toNat * n) + w.toNat * n := by
    rw [Nat.add_mul, Nat.mul_right_comm, Nat.mul_comm _ (2 ^ 32)]
  calc scaledPair n u w
      = (2 ^ 32 * (u.toNat * n) + w.toNat * n) / 2 ^ 32 / 2 ^ 32 := by
        rw [scaledPair, hsplit, Nat.div_div_eq_div_mul, ← Nat.pow_add]
    _ = (u.toNat * n + w.toNat * n / 2 ^ 32) / 2 ^ 32 := by
        rw [Nat.mul_add_div (Nat.two_pow_pos 32)]

variable {n : Nat}

theorem scaledPair_eq_scaledWhole_add (hpos : 0 < n) (hn : n ≤ wordCount) (u w : UInt32) :
    scaledPair n u w =
      scaledWhole wordCount n u.toNat + if carries wordCount n u.toNat w.toNat then 1 else 0 := by
  rw [scaledPair_eq, scaledWhole_add_carry hpos hn w.toNat_lt]

variable {σ : Type} [WordSource σ]

theorem snd_of_index (hn : n < wordCount) (s : σ) : (index n s).2 =
    if mayCarry wordCount n (ahead 0 s).toNat then skip 2 s else skip 1 s := by
  split
  · next h => rw [index_of_mayCarry hn h]
  · next h => rw [index_of_not_mayCarry hn h]

theorem scaledDraw_index (hpos : 0 < n) (hn : n < wordCount) (s : σ) :
    ScaledDraw n (ahead 0 s) (ahead 1 s) s (index n s).1 (index n s).2 := by
  have hle : n ≤ wordCount := Nat.le_of_lt hn
  have hvalue : (index n s).1 = scaledPair n (ahead 0 s) (ahead 1 s) := by
    rw [scaledPair_eq, index_of_lt hn]
    exact scaled_fst drawWord_lt hpos hle s
  constructor
  case index_eq => exact hvalue
  case index_lt => exact index_lt hpos s
  case rest_eq =>
    rw [snd_of_index hn]
    simp only [mayCarry_iff]
    rfl
  case of_one_word =>
    intro hrest w'
    have hmay : mayCarry wordCount n (ahead 0 s).toNat = false :=
      Bool.eq_false_iff.mpr fun h => absurd (mayCarry_iff.mp h) (Nat.not_lt.mpr hrest)
    have hnever (w : UInt32) : carries wordCount n (ahead 0 s).toNat w.toNat = false :=
      not_carries_of_not_mayCarry hpos hle hmay w.toNat_lt
    simp only [hvalue, scaledPair_eq_scaledWhole_add hpos hle, hnever]
  case of_two_words =>
    intro hrest
    have hcarries : carries wordCount n (ahead 0 s).toNat (0xFFFFFFFF : UInt32).toNat = true :=
      carries_of_mayCarry hpos hle (mayCarry_iff.mpr hrest)
    have hzero : carries wordCount n (ahead 0 s).toNat (0 : UInt32).toNat = false :=
      carries_zero (by decide) n _
    refine ⟨0xFFFFFFFF, ?_⟩
    simp only [scaledPair_eq_scaledWhole_add hpos hle, hcarries, hzero]
    rfl

/-- The next two words of a source, scaled to `n`, are the index that is drawn from it, and that is below
`n`. It is drawn as `Stream.shiftDraw` says. -/
theorem index_scales_exactly (n : Nat) (u w : UInt32) (s : σ) (hpos : 1 ≤ n) (hn : n < 2 ^ 32)
    (hu : ahead 0 s = u) (hw : ahead 1 s = w) :
    ScaledDraw n u w s (index n s).1 (index n s).2 ∧ ∀ r : Stream, index n r = r.shiftDraw n := by
  subst hu hw
  exact ⟨scaledDraw_index hpos hn s, Stream.index_eq_shiftDraw hn⟩

/-- A second word that carries, and half of the words scaled to three, where no second word can. -/
theorem index_scales_exactly_two :
    (1 ≤ 250 ∧ 250 < 2 ^ 32 ∧
      (index 250 (Stream.start fun i => if i = 0 then 17179869 else 0xFFFFFFFF)).1 = 1 ∧
      (index 250 (Stream.start fun i => if i = 0 then 17179869 else 0xFFFFFFFF)).2.used = 2) ∧
      1 ≤ 3 ∧ 3 < 2 ^ 32 ∧ (index 3 (Stream.start fun _ => 0x80000000)).2.used = 1 ∧
        ∀ w, scaledPair 3 0x80000000 w = 1 := by
  obtain ⟨hcarrying, -⟩ := index_scales_exactly 250 17179869 0xFFFFFFFF
    (Stream.start fun i => if i = 0 then 17179869 else 0xFFFFFFFF) (by decide) (by decide) rfl rfl
  obtain ⟨hhalf, -⟩ := index_scales_exactly 3 0x80000000 0x80000000
    (Stream.start fun _ => 0x80000000) (by decide) (by decide) rfl rfl
  have hused : (index 250 (Stream.start fun i => if i = 0 then 17179869 else 0xFFFFFFFF)).2.used = 2 := by
    rw [hcarrying.rest_eq, if_pos (by decide), Stream.skip_eq]
    rfl
  have hused' : (index 3 (Stream.start fun _ => 0x80000000)).2.used = 1 := by
    rw [hhalf.rest_eq, if_neg (by decide), Stream.skip_eq]
    rfl
  have hindex : (index 3 (Stream.start fun _ => 0x80000000)).1 = 1 :=
    hhalf.index_eq.trans (by decide)
  refine ⟨⟨by decide, by decide, hcarrying.index_eq.trans (by decide), hused⟩, by decide, by decide,
    hused', fun w => ?_⟩
  rw [← hhalf.of_one_word (by decide) w, hindex]

end RunMerge.Draw
