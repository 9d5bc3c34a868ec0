import Mathlib.Logic.ExistsUnique
import Mathlib.Logic.Function.Defs
import RunMerge.Proofs.DrawnIndex

/-!
# Seeds and the words of their generators

Every seed belongs to one salt, for mixing loses nothing. To fold a word is to take it together with its
own bits moved to the right. When a word is folded twice the bits moved once cancel, and what is left is
a fold twice as far; so four folds move the bits out of the word, and three of them undo the fourth. A
product with an odd number is undone by a product with its inverse.

A generator keeps one block and computes the next one when all words of it have been handed out. What it
hands out is nevertheless the sequence of its key, word for word and across the ends of the blocks, as
long as its counter is one ahead of the block at hand.
-/

namespace RunMerge.Draw

namespace Seed

def fold (places z : UInt64) : UInt64 := z ^^^ (z >>> places)

/-- What undoes a fold: three more of them. -/
def unfold (places z : UInt64) : UInt64 := fold places (fold places (fold places z))

/-- The word of which a word is the mixture. The factors are the inverses of those in `mix`. -/
def unmix (z : UInt64) : UInt64 :=
  let z := unfold 31 z * 0x319642B2D24D8EC3
  let z := unfold 27 z * 0x96DE1B173F119089
  unfold 30 z

def saltOf (seed : UInt64) : UInt64 := base ^^^ unmix seed

variable {places z : UInt64}

theorem mix_eq (z : UInt64) :
    mix z = fold 31 (fold 27 (fold 30 z * 0xBF58476D1CE4E5B9) * 0x94D049BB133111EB) := rfl

theorem toNat_fold (h : places.toNat < 64) (z : UInt64) :
    (fold places z).toNat = z.toNat ^^^ z.toNat >>> places.toNat := by
  simp [fold, Nat.mod_eq_of_lt h]

/-- The bits that have been moved once are there twice, and cancel. -/
theorem xor_shiftRight_twice (n s : Nat) :
    (n ^^^ n >>> s) ^^^ (n ^^^ n >>> s) >>> s = n ^^^ n >>> (s + s) := by
  rw [Nat.shiftRight_xor_distrib, ← Nat.shiftRight_add, Nat.xor_assoc, ← Nat.xor_assoc (n >>> s),
    Nat.xor_self, Nat.zero_xor]

theorem toNat_fold_fold (h : places.toNat < 64) (z : UInt64) :
    (fold places (fold places z)).toNat = z.toNat ^^^ z.toNat >>> (places.toNat + places.toNat) := by
  rw [toNat_fold h, toNat_fold h, xor_shiftRight_twice]

/-- Four folds by a quarter of the width or more leave a word as it is. -/
theorem fold_unfold (hge : 16 ≤ places.toNat) (hlt : places.toNat < 64) (z : UInt64) :
    fold places (unfold places z) = z := by
  apply UInt64.toNat_inj.mp
  rw [unfold, toNat_fold_fold hlt, toNat_fold_fold hlt, xor_shiftRight_twice]
  have hout : z.toNat < 2 ^ (places.toNat + places.toNat + (places.toNat + places.toNat)) :=
    Nat.lt_of_lt_of_le z.toNat_lt (Nat.pow_le_pow_right (by decide) (by omega))
  rw [Nat.shiftRight_eq_zero _ _ hout, Nat.xor_zero]

theorem unfold_fold (hge : 16 ≤ places.toNat) (hlt : places.toNat < 64) (z : UInt64) :
    unfold places (fold places z) = z := fold_unfold hge hlt z

theorem mul_mul_of_eq_one {a b : UInt64} (h : a * b = 1) (z : UInt64) : z * a * b = z := by
  rw [UInt64.mul_assoc, h, UInt64.mul_one]

theorem unmix_mix (z : UInt64) : unmix (mix z) = z := by
  rw [mix_eq, unmix, unfold_fold (by decide) (by decide), mul_mul_of_eq_one (by decide),
    unfold_fold (by decide) (by decide), mul_mul_of_eq_one (by decide),
    unfold_fold (by decide) (by decide)]

theorem mix_unmix (z : UInt64) : mix (unmix z) = z := by
  rw [mix_eq, unmix, fold_unfold (by decide) (by decide), mul_mul_of_eq_one (by decide),
    fold_unfold (by decide) (by decide), mul_mul_of_eq_one (by decide),
    fold_unfold (by decide) (by decide)]

theorem base_xor_base_xor (z : UInt64) : base ^^^ (base ^^^ z) = z := by
  rw [← UInt64.xor_assoc, UInt64.xor_self, UInt64.zero_xor]

theorem saltOf_ofSalt (salt : UInt64) : saltOf (ofSalt salt) = salt := by
  rw [saltOf, ofSalt, unmix_mix, base_xor_base_xor]

theorem ofSalt_saltOf (seed : UInt64) : ofSalt (saltOf seed) = seed := by
  rw [saltOf, ofSalt, base_xor_base_xor, mix_unmix]

/-- Two salts never share a seed, and no seed is without a salt. -/
theorem ofSalt_bijective :
    Function.Injective ofSalt ∧ ∀ seed : UInt64, ∃! salt : UInt64, ofSalt salt = seed := by
  have hinjective : Function.Injective ofSalt := Function.LeftInverse.injective saltOf_ofSalt
  refine ⟨hinjective, fun seed => ⟨saltOf seed, ofSalt_saltOf seed, fun salt hsalt => ?_⟩⟩
  exact hinjective (hsalt.trans (ofSalt_saltOf seed).symm)

end Seed

namespace ChaCha

inductive StandsAt (key : Key) : Nat → Generator → Prop
  | start (empty : Block) : StandsAt key 0 ⟨key, 0, empty, 16⟩
  | within (number taken : Nat) (h : taken ≤ 16) :
    StandsAt key (16 * number + taken)
      ⟨key, UInt64.ofNat (number + 1), block key (UInt64.ofNat number), taken⟩

open WordSource (next skip ahead skip_succ)

theorem sequence_eq (key : Key) (number : Nat) {taken : Nat} (h : taken < 16) :
    sequence key (16 * number + taken) = (block key (UInt64.ofNat number))[taken] := by
  have hdiv : (16 * number + taken) / 16 = number := by omega
  have hmod : (16 * number + taken) % 16 = taken := by omega
  simp only [sequence, hdiv, hmod]
  rfl

variable {key : Key} {i : Nat} {g : Generator}

theorem next_of_lt (h : g.taken < 16) :
    next g = (g.current[g.taken], { g with taken := g.taken + 1 }) := dif_pos h

theorem next_of_le (h : 16 ≤ g.taken) :
    next g = ((block g.key g.counter).get ⟨0, by decide⟩,
      ⟨g.key, g.counter + 1, block g.key g.counter, 1⟩) :=
  dif_neg (Nat.not_lt.mpr h)

/-- A draw hands out the word where the generator stands and takes the generator to the one behind. -/
theorem StandsAt.next (h : StandsAt key i g) :
    (next g).1 = sequence key i ∧ StandsAt key (i + 1) (next g).2 := by
  cases h with
  | start empty => exact ⟨(sequence_eq key 0 (by decide)).symm, .within 0 1 (by decide)⟩
  | within number taken h =>
    rcases Nat.lt_or_eq_of_le h with hlt | rfl
    · rw [next_of_lt hlt]
      exact ⟨(sequence_eq key number hlt).symm, .within number (taken + 1) hlt⟩
    · -- The block is used up, and the next one is that of the counter.
      have hcounter : UInt64.ofNat (number + 2) = UInt64.ofNat (number + 1) + 1 :=
        UInt64.ofNat_add (number + 1) 1
      rw [next_of_le (Nat.le_refl 16), ← hcounter]
      exact ⟨(sequence_eq key (number + 1) (by decide)).symm, .within (number + 1) 1 (by decide)⟩

theorem StandsAt.skip (h : StandsAt key i g) (count : Nat) : StandsAt key (i + count) (skip count g) := by
  induction count generalizing i g with
  | zero => exact h
  | succ count ih =>
    have hrest := ih h.next.2
    rw [Nat.add_assoc, Nat.add_comm 1] at hrest
    exact hrest

/-- The words of a generator that has just been made are the sequence of its key. -/
theorem ahead_ofKey (key : Key) (i : Nat) : ahead i (Generator.ofKey key) = sequence key i := by
  have h : StandsAt key (0 + i) (skip i (Generator.ofKey key)) := (StandsAt.start _).skip i
  rw [Nat.zero_add] at h
  exact h.next.1

end ChaCha

end RunMerge.Draw
