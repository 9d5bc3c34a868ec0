import RunMerge.Proofs.SeededGenerators
import RunMerge.Proofs.WordForWord

/-!
# Datasets are settled by the words they draw

How many words a dataset draws depends on the words, for an index may take one or two. But whatever is
drawn is all that counts: the words that have been drawn for some datasets settle these datasets and how
many words they take. So a generator can be replaced by the finite list of words that it has handed out,
and goes on behind them.
-/

namespace RunMerge

open Draw (Agree ChaCha.sequence Seed.expand Seed.generator Seed.ofSalt? Settles Stream WordSource)
open Draw.WordSource (next ahead skip skip_add)

namespace Dataset

structure SettledBy (parts : List (Distribution × Nat)) (word : Nat → UInt32) (count : Nat)
    (sets : List (Array Int32)) : Prop where
  drawn : generateAll parts (Stream.start word) = .ok (sets, ⟨word, count⟩)
  same : ∀ other : Nat → UInt32, (∀ i < count, other i = word i) →
    generateAll parts (Stream.start other) = .ok (sets, ⟨other, count⟩)

/-- The generator of a seed hands out the sequence of its key, the first words of which settle the datasets.
It goes on with the word behind them, and these words alone lead to the same datasets. -/
structure MadeBySeed (parts : List (Distribution × Nat)) (seed : UInt64) (count : Nat)
    (sets : List (Array Int32)) : Prop where
  ahead_eq : ∀ i, ahead i (Seed.generator seed) = ChaCha.sequence (Seed.expand seed) i
  settled : SettledBy parts (ChaCha.sequence (Seed.expand seed)) count sets
  made : ∃ g, generateAll parts (Seed.generator seed) = .ok (sets, g) ∧
    (next g).1 = ChaCha.sequence (Seed.expand seed) count
  replayed : ∃ t, t.used = count ∧ generateAll parts
    (Stream.cyclic (Array.ofFn fun i : Fin count => ChaCha.sequence (Seed.expand seed) i)) = .ok (sets, t)

variable {σ : Type} [WordSource σ]

theorem ReadsOff.settled {distribution : Distribution} {value : UInt32 → Int32}
    (h : ReadsOff distribution value) (size : Nat) (s : σ) :
    Settles (fun _ _ t => generate distribution size t) s size (readOff value size s).toArray := by
  intro τ _ t hst
  have hwords : readOff value size t = readOff value size s :=
    List.map_congr_left fun i hi => congrArg value (hst i (List.mem_range.mp hi)).symm
  show generate distribution size t = _
  rw [h, hwords]

/-- The words of the two draws settle which slots are exchanged, and what follows draws behind them. -/
theorem shuffle_settled {xs : Array Int32} (hpos : 0 < xs.size) (count : Nat) (s : σ) :
    ∃ taken ys, Settles (fun _ _ t => shuffle count xs t) s taken ys := by
  induction count generalizing xs s with
  | zero => exact ⟨0, xs, fun _ _ _ _ => rfl⟩
  | succ count ih =>
    obtain ⟨m, a, ha, hfirst⟩ := Draw.index_settled hpos s
    obtain ⟨n, b, hb, hsecond⟩ := Draw.index_settled hpos (skip m s)
    obtain ⟨k, ys, hrest⟩ := @ih (xs.swap a b) (by rwa [Array.size_swap]) (skip n (skip m s))
    refine ⟨m + (n + k), ys, fun τ _ t hst => ?_⟩
    have hfirst' : Draw.index xs.size t = (a, skip m t) := Except.ok.inj (hfirst τ t hst.left)
    have hsecond' : Draw.index xs.size (skip m t) = (b, skip n (skip m t)) :=
      Except.ok.inj (hsecond τ (skip m t) hst.right.left)
    have hrest' : shuffle count (xs.swap a b) (skip n (skip m t)) =
        .ok (ys, skip k (skip n (skip m t))) := hrest τ _ hst.right.right
    show shuffle (count + 1) xs t = _
    rw [shuffle_succ, hfirst', hsecond', Slots.exchange_of_lt ha hb, Checked.ok_bind, hrest', skip_add,
      skip_add]

theorem generate_settled (distribution : Distribution) (size : Nat) (s : σ) :
    ∃ count xs, Settles (fun _ _ t => generate distribution size t) s count xs := by
  cases distribution with
  | uniform => exact ⟨_, _, uniform_readsOff.settled size s⟩
  | fewDistinct => exact ⟨_, _, fewDistinct_readsOff.settled size s⟩
  | nearlySorted =>
    rcases Nat.eq_zero_or_pos size with rfl | hpos
    · exact ⟨0, ascending 0, fun _ _ _ _ => rfl⟩
    · exact shuffle_settled (by rwa [size_ascending]) (exchanges size) s

theorem generateAll_settled (parts : List (Distribution × Nat)) (s : σ) :
    ∃ count sets, Settles (fun _ _ t => generateAll parts t) s count sets := by
  induction parts generalizing s with
  | nil => exact ⟨0, [], fun _ _ _ _ => rfl⟩
  | cons part parts ih =>
    obtain ⟨distribution, size⟩ := part
    obtain ⟨m, set, hset⟩ := generate_settled distribution size s
    obtain ⟨n, sets, hsets⟩ := ih (skip m s)
    refine ⟨m + n, set :: sets, fun τ _ t hst => ?_⟩
    have hfirst : generate distribution size t = .ok (set, skip m t) := hset τ t hst.left
    have hrest : generateAll parts (skip m t) = .ok (sets, skip n (skip m t)) :=
      hsets τ (skip m t) hst.right
    simp [generateAll, hfirst, hrest, skip_add]

variable {parts : List (Distribution × Nat)} {count : Nat} {sets : List (Array Int32)}

theorem settledBy_of_settles {word : Nat → UInt32}
    (h : Settles (fun _ _ t => generateAll parts t) (Stream.start word) count sets) :
    SettledBy parts word count sets := by
  have hsame : ∀ other : Nat → UInt32, (∀ i < count, other i = word i) →
      generateAll parts (Stream.start other) = .ok (sets, ⟨other, count⟩) := by
    intro other hother
    have hagree : Agree count (Stream.start word) (Stream.start other) :=
      Stream.agree_start (by simpa [Stream.start] using hother)
    simpa [Stream.start] using h Stream (Stream.start other) hagree
  exact ⟨hsame word fun _ _ => rfl, hsame⟩

/-- Words that are repeated for ever begin with themselves. -/
theorem SettledBy.cyclic {word : Nat → UInt32} (h : SettledBy parts word count sets) :
    ∃ t, t.used = count ∧
      generateAll parts (Stream.cyclic (Array.ofFn fun i : Fin count => word i)) = .ok (sets, t) := by
  refine ⟨_, rfl, h.same _ fun i hi => ?_⟩
  simp [Nat.mod_eq_of_lt hi, hi]

theorem madeBySeed_of_settles {seed : UInt64}
    (h : Settles (fun _ _ t => generateAll parts t)
      (Stream.start (ChaCha.sequence (Seed.expand seed))) count sets) :
    MadeBySeed parts seed count sets := by
  have hahead : ∀ i, ahead i (Seed.generator seed) = ChaCha.sequence (Seed.expand seed) i :=
    Draw.ChaCha.ahead_ofKey (Seed.expand seed)
  have hmade := h _ _ (Stream.agree_start fun i _ => hahead i)
  have hsettled := settledBy_of_settles h
  exact ⟨hahead, hsettled, ⟨_, hmade, hahead count⟩, hsettled.cyclic⟩

/-- Whatever is to be made from whatever words, the words that are drawn settle it. A generator of any salt
or of none is a case of this. -/
theorem datasets_settled_by_words (parts : List (Distribution × Nat)) (word : Nat → UInt32)
    (salt : Option UInt64) :
    (∃ count sets, SettledBy parts word count sets) ∧
      ∃ count sets, MadeBySeed parts (Seed.ofSalt? salt) count sets := by
  constructor
  · obtain ⟨count, sets, h⟩ := generateAll_settled parts (Stream.start word)
    exact ⟨count, sets, settledBy_of_settles h⟩
  · obtain ⟨count, sets, h⟩ := generateAll_settled parts
      (Stream.start (ChaCha.sequence (Seed.expand (Seed.ofSalt? salt))))
    exact ⟨count, sets, madeBySeed_of_settles h⟩

/-- The first index takes two words, and the second of them carries. What follows the four words that are
drawn does not matter. -/
theorem datasets_settled_by_words_carrying :
    ∃ count sets, count = 4 ∧ sets = [#[0, 2, 1], #[-1]] ∧
      generateAll [(.nearlySorted, 3), (.uniform, 1)]
          (Stream.start fun i => if i = 0 then 0x55555555 else 0xFFFFFFFF) =
        .ok (sets, ⟨fun i => if i = 0 then 0x55555555 else 0xFFFFFFFF, count⟩) ∧
      (∀ i < count, (if i = 0 then 0x55555555 else if i < 4 then 0xFFFFFFFF else 0 : UInt32) =
        if i = 0 then 0x55555555 else 0xFFFFFFFF) ∧
      generateAll [(.nearlySorted, 3), (.uniform, 1)]
          (Stream.start fun i => if i = 0 then 0x55555555 else if i < 4 then 0xFFFFFFFF else 0) =
        .ok (sets, ⟨fun i => if i = 0 then 0x55555555 else if i < 4 then 0xFFFFFFFF else 0, count⟩) := by
  obtain ⟨count, sets, h⟩ := (datasets_settled_by_words [(.nearlySorted, 3), (.uniform, 1)]
    (fun i => if i = 0 then 0x55555555 else 0xFFFFFFFF) none).1
  have hdrawn : generateAll [(.nearlySorted, 3), (.uniform, 1)]
      (Stream.start fun i => if i = 0 then 0x55555555 else 0xFFFFFFFF) =
    .ok ([#[0, 2, 1], #[-1]], ⟨fun i => if i = 0 then 0x55555555 else 0xFFFFFFFF, 4⟩) := by cbv
  have heq := h.drawn.symm.trans hdrawn
  simp only [Except.ok.injEq, Prod.mk.injEq, Stream.mk.injEq, true_and] at heq
  obtain ⟨rfl, rfl⟩ := heq
  have hagree : ∀ i < 4, (if i = 0 then 0x55555555 else if i < 4 then 0xFFFFFFFF else 0 : UInt32) =
      if i = 0 then 0x55555555 else 0xFFFFFFFF := by decide
  exact ⟨4, _, rfl, rfl, hdrawn, hagree, h.same _ hagree⟩

end Dataset

end RunMerge
