import Mathlib.Algebra.Group.Nat.Defs
import Mathlib.Data.Nat.Log
import RunMerge.Passes

/-!
# The lengths of passes and of arrays

The widths of the passes are the powers of two below the length. Doubling saturates one step before it
would leave the range of a word, and no length reaches that far. So saturation never adds a pass, drops
one, or makes two of the same width.

The test of bits singles out the lengths `2 ^ k` and `2 ^ k - 1`. From two elements on these are the
lengths whose midpoint is a power of two, which is what the fixed-mid passes need.
-/

namespace RunMerge

theorem widthsFrom_of_le {n w : Nat} (h : n ≤ w) : widthsFrom n w = [] := by
  rw [widthsFrom, if_neg (by omega)]

/-- The schedule from width `2 ^ e` on. -/
theorem widthsFrom_pow {n : Nat} (hn : n < Word.limit) (e : Nat) :
    widthsFrom n (2 ^ e) = (List.range' e (Nat.clog 2 n - e)).map (2 ^ ·) := by
  induction hd : Nat.clog 2 n - e generalizing e with
  | zero =>
    have hle : n ≤ 2 ^ e := (Nat.clog_le_iff_le_pow Nat.one_lt_two).mp (by omega)
    rw [widthsFrom_of_le hle]
    rfl
  | succ d ih =>
    have hlt : 2 ^ e < n := (Nat.lt_clog_iff_pow_lt Nat.one_lt_two).mp (by omega)
    have hpos := Nat.two_pow_pos e
    have hdouble : 2 ^ (e + 1) = 2 ^ e * 2 := Nat.pow_succ 2 e
    have hgrows : 2 ^ e < Word.satMul (2 ^ e) 2 := by
      simp only [Word.satMul, Word.largest]
      omega
    rw [widthsFrom, if_pos ⟨hlt, hgrows⟩, List.range'_succ, List.map_cons]
    congr 1
    by_cases hword : 2 ^ e * 2 < Word.limit
    · rw [Word.satMul_of_lt hword, ← hdouble, ih (e + 1) (by omega)]
    · have hsat : Word.satMul (2 ^ e) 2 = Word.largest :=
        Nat.min_eq_right (by rw [Word.largest]; omega)
      have hclog : Nat.clog 2 n ≤ e + 1 := Nat.clog_le_of_le_pow (by omega)
      have hd0 : d = 0 := by omega
      rw [hsat, widthsFrom_of_le (by rw [Word.largest]; omega), hd0]
      rfl

/-- As many passes as doublings of one reach the length, each twice as wide as the one before. -/
theorem widths_eq {n : Nat} (hn : n < Word.limit) :
    widths n = (List.range (Nat.clog 2 n)).map (2 ^ ·) := by
  rw [widths, ← Nat.pow_zero 2, widthsFrom_pow hn 0, Nat.sub_zero, List.range_eq_range']

theorem mem_widths {n : Nat} (hn : n < Word.limit) {w : Nat} :
    w ∈ widths n ↔ ∃ e, 2 ^ e = w ∧ w < n := by
  rw [widths_eq hn, List.mem_map]
  constructor
  · rintro ⟨e, he, rfl⟩
    exact ⟨e, rfl, Nat.pow_lt_of_lt_clog (List.mem_range.mp he)⟩
  · rintro ⟨e, rfl, he⟩
    exact ⟨e, List.mem_range.mpr ((Nat.lt_clog_iff_pow_lt Nat.one_lt_two).mpr he), rfl⟩

/-- The bits of a length and of its successor are disjoint exactly below a power of two. At the
largest word the successor is zero. -/
theorem and_wrapSucc_eq_zero_iff {n : Nat} (hn : n < Word.limit) :
    n &&& Word.wrapSucc n = 0 ↔ ∃ k, n + 1 = 2 ^ k := by
  by_cases hlast : n + 1 = Word.limit
  · have hwrap : Word.wrapSucc n = 0 := by rw [Word.wrapSucc, hlast, Nat.mod_self]
    rw [hwrap, Nat.and_zero, hlast]
    exact ⟨fun _ => ⟨64, rfl⟩, fun _ => rfl⟩
  · have hsucc : Word.wrapSucc n = n + 1 := Nat.mod_eq_of_lt (by omega)
    have hbits := @Nat.and_sub_one_eq_zero_iff_isPowerOfTwo (n + 1) (by omega)
    rw [Nat.add_sub_cancel, Nat.and_comm] at hbits
    rw [hsucc, hbits]
    rfl

theorem isPowerOfTwo_iff (n : Nat) : Word.isPowerOfTwo n = true ↔ ∃ k, n = 2 ^ k := by
  have hbits := @Nat.ne_zero_and_sub_one_eq_zero_iff_isPowerOfTwo n
  rw [Word.isPowerOfTwo, Bool.and_eq_true, bne_iff_ne, beq_iff_eq, hbits]
  rfl

theorem supports_fixedMid_iff {n : Nat} (hn : n < Word.limit) :
    Strategy.supports .fixedMid n = true ↔ ∃ k, n = 2 ^ k ∨ n + 1 = 2 ^ k := by
  rw [Strategy.supports, Bool.or_eq_true, isPowerOfTwo_iff, beq_iff_eq, and_wrapSucc_eq_zero_iff hn,
    exists_or]

namespace FixedMid

theorem midpoint_eq_pow_iff {n k : Nat} :
    midpoint n = 2 ^ k ↔ n = 2 ^ (k + 1) ∨ n + 1 = 2 ^ (k + 1) := by
  have hdouble := Nat.pow_succ 2 k
  rw [midpoint]
  omega

/-- From two elements on, the lengths taken are those whose midpoint is a power of two. -/
theorem supports_iff_midpoint {n : Nat} (hn : n < Word.limit) (h2 : 2 ≤ n) :
    Strategy.supports .fixedMid n = true ↔ ∃ k, midpoint n = 2 ^ k := by
  rw [supports_fixedMid_iff hn]
  constructor
  · rintro ⟨k, hk⟩
    cases k with
    | zero => omega
    | succ k => exact ⟨k, midpoint_eq_pow_iff.mpr hk⟩
  · rintro ⟨k, hk⟩
    exact ⟨k + 1, midpoint_eq_pow_iff.mp hk⟩

/-- There is one pass more than the midpoint has doublings, so the last width is the midpoint. -/
theorem clog_of_midpoint {n k : Nat} (h2 : 2 ≤ n) (hmid : midpoint n = 2 ^ k) :
    Nat.clog 2 n = k + 1 := by
  have hdouble := Nat.pow_succ 2 k
  rw [midpoint] at hmid
  have hle : Nat.clog 2 n ≤ k + 1 := Nat.clog_le_of_le_pow (by omega)
  have hlt : k < Nat.clog 2 n := (Nat.lt_clog_iff_pow_lt Nat.one_lt_two).mpr (by omega)
  omega

/-- The midpoint is half the length, rounded up. -/
theorem midpoint_bounds (n : Nat) : n ≤ 2 * midpoint n ∧ 2 * midpoint n ≤ n + 1 := by
  rw [midpoint]
  omega

end FixedMid

/-- The test of bits takes the powers of two and the numbers one below them, and nothing else. Zero is one
of these, and so is the largest size, whose successor wraps. From two elements on they are the lengths
whose midpoint, half the length rounded up, is a power of two. -/
theorem supports_fixedMid_exact {len : Nat} (hlen : len < Word.limit) :
    (Strategy.supports .fixedMid len = true ↔ ∃ k, len = 2 ^ k ∨ len = 2 ^ k - 1) ∧
      Strategy.supports .fixedMid 0 = true ∧ Strategy.supports .fixedMid Word.largest = true ∧
      Word.wrapSucc Word.largest = 0 ∧
      (2 ≤ len → (Strategy.supports .fixedMid len = true ↔ ∃ k, FixedMid.midpoint len = 2 ^ k)) ∧
      len ≤ 2 * FixedMid.midpoint len ∧ 2 * FixedMid.midpoint len ≤ len + 1 := by
  refine ⟨?_, by decide, by decide, by decide, fun h2 => FixedMid.supports_iff_midpoint hlen h2,
    FixedMid.midpoint_bounds len⟩
  rw [supports_fixedMid_iff hlen]
  refine exists_congr fun k => or_congr_right ?_
  have hpos := Nat.two_pow_pos k
  omega

/-- The largest size is taken, and half of it rounded up is the highest bit. -/
theorem supports_fixedMid_exact_largest :
    Word.largest < Word.limit ∧ 2 ≤ Word.largest ∧ Word.largest = 2 ^ 64 - 1 ∧
      Strategy.supports .fixedMid Word.largest = true ∧
      ∃ k, FixedMid.midpoint Word.largest = 2 ^ k := by
  have hlen : Word.largest < Word.limit := by decide
  have h2 : 2 ≤ Word.largest := by decide
  obtain ⟨hpowers, -, -, -, hmidpoint, -⟩ := supports_fixedMid_exact hlen
  have hsupports : Strategy.supports .fixedMid Word.largest = true :=
    hpowers.mpr ⟨64, .inr (by decide)⟩
  exact ⟨hlen, h2, by decide, hsupports, (hmidpoint h2).mp hsupports⟩

end RunMerge
