import RunMerge.Proofs.BottomUpSort
import RunMerge.Proofs.FixedMidSort
import RunMerge.Sort

/-!
# Every sort ends, whatever its scratch holds

A sort of an array that fits in memory stops with a report and never with a fault, whatever the
scratch holds and whatever the allocator grants. No law of the order is assumed, so this does not
rest on the sort being right. `Ending` says once in which four ways a sort can end and what it
leaves in each of them: it is refused for its length, idle, refused memory, or granted it. The first
three endings keep the data and the scratch; the last one is the run of the strategy on a borrowed
array. Refusals and the contents of scratches are derived from it.

Every pass writes all slots of its target before the next pass reads them. So what a scratch held
before a sort is gone from the part that was borrowed, and data, log and failure depend on the
strategy and the array alone. Only a refusal of memory can tell two scratches apart. As everywhere,
the length is one that an array in memory can have, which is below the largest word.
-/

namespace RunMerge

section Outcomes

variable {α : Type}

namespace Scratch

theorem first_of_le {s : Scratch α} {len : Nat} (h : len ≤ s.size) :
    s.first len = .ok (s.slots.extract 0 len) := by
  have hin : Slots.inRange 0 len s.size = .ok () := Slots.inRange_eq_ok_iff.mpr ⟨Nat.zero_le len, h⟩
  rw [first, hin]
  rfl

/-- A part that was put back is found in front. -/
theorem extract_restore (s : Scratch α) (part : Array α) :
    (s.restore part).slots.extract 0 part.size = part := by
  rw [restore, Array.extract_append]
  simp

theorem first_restore (s : Scratch α) (part : Array α) :
    (s.restore part).first part.size = .ok part := by
  have hsize : part.size ≤ (s.restore part).size := by
    simp only [restore, size, Array.size_append]
    omega
  rw [first_of_le hsize, extract_restore]

theorem getD_restore (s : Scratch α) (part : Array α) (i : Nat) (x : α) :
    (s.restore part).slots.getD i x =
      if i < part.size then part.getD i x else s.slots.getD i x := by
  simp only [Array.getD_eq_getD_getElem?, restore]
  by_cases hi : i < part.size
  · rw [if_pos hi, Array.getElem?_append_left hi]
  · rw [if_neg hi, Array.getElem?_append_right (by omega), Array.getElem?_extract,
      Nat.add_sub_cancel' (by omega), size, Nat.min_self]
    by_cases hs : i < s.slots.size
    · rw [if_pos (by omega)]
    · rw [if_neg (by omega), Array.getElem?_eq_none (by omega)]

/-- Memory is refused only to a scratch that has to grow. -/
theorem refused_or_granted (grant : Allocator) (s : Scratch α) (len : Nat) :
    (s.size < len ∧ ∃ cause, grant len = .error cause) ∨ (s.size < len → grant len = .ok ()) := by
  by_cases h : s.size < len
  · cases hg : grant len with
    | error cause => exact .inl ⟨h, cause, rfl⟩
    | ok u => exact .inr fun _ => rfl
  · exact .inr fun h' => absurd h' h

variable [Inhabited α]

def grownTo (s : Scratch α) (len : Nat) : Scratch α :=
  ⟨s.slots ++ Array.replicate (len - s.size) default⟩

theorem size_grownTo (s : Scratch α) (len : Nat) : (s.grownTo len).size = max s.size len := by
  simp only [grownTo, size, Array.size_append, Array.size_replicate]
  omega

/-- A slot that was not there before growing reads the same after it. -/
theorem getD_grownTo (s : Scratch α) (len i : Nat) :
    (s.grownTo len).slots.getD i default = s.slots.getD i default := by
  simp only [Array.getD_eq_getD_getElem?, grownTo]
  by_cases hi : i < s.slots.size
  · rw [Array.getElem?_append_left hi]
  · rw [Array.getElem?_append_right (by omega), Array.getElem?_replicate,
      Array.getElem?_eq_none (by omega)]
    split <;> rfl

theorem grownTo_of_le {s : Scratch α} {len : Nat} (h : len ≤ s.size) : s.grownTo len = s := by
  simp [grownTo, Nat.sub_eq_zero_of_le h]

theorem ensure_refused {grant : Allocator} {s : Scratch α} {len : Nat} {cause : AllocError}
    (h : s.size < len) (hgrant : grant len = .error cause) :
    s.ensure grant len = .ok (.error cause) := by
  have hlen : s.size + (len - s.size) = len := by omega
  rw [ensure, if_pos h, Word.sub_of_le (Nat.le_of_lt h), Checked.ok_bind, hlen, hgrant]
  rfl

theorem ensure_granted {grant : Allocator} {s : Scratch α} {len : Nat}
    (hgrant : s.size < len → grant len = .ok ()) :
    s.ensure grant len = .ok (.ok (s.grownTo len)) := by
  by_cases h : s.size < len
  · have hlen : s.size + (len - s.size) = len := by omega
    rw [ensure, if_pos h, Word.sub_of_le (Nat.le_of_lt h), Checked.ok_bind, hlen, hgrant h]
    rfl
  · rw [ensure_of_le grant (by omega), grownTo_of_le (by omega)]

def borrowed (s : Scratch α) (len : Nat) : Array α := (s.grownTo len).slots.extract 0 len

theorem size_borrowed (s : Scratch α) (len : Nat) : (s.borrowed len).size = len := by
  have hsize : (s.grownTo len).slots.size = max s.size len := s.size_grownTo len
  rw [borrowed, Array.size_extract, hsize]
  omega

end Scratch

variable [LE α] [DecidableLE α]

/-- A strategy has work to do on two elements or more, which for the bottom-up one are not in order
already. -/
theorem idleOn_eq_false_iff {strategy : Strategy} {data : Array α} :
    strategy.idleOn data = false ↔
      2 ≤ data.size ∧ (strategy = .bottomUp → isSorted data = false) := by
  cases strategy with
  | bottomUp =>
    simp only [Strategy.idleOn, Bool.or_eq_false_iff, decide_eq_false_iff_not, Nat.not_lt,
      forall_const]
  | fixedMid =>
    simp only [Strategy.idleOn, decide_eq_false_iff_not, Nat.not_lt, reduceCtorEq, false_imp_iff,
      and_true]

variable [Inhabited α]
variable {grant : Allocator} {strategy : Strategy} {data : Array α} {s : Scratch α}

theorem sortWith_unsupported (hlen : strategy.supports data.size = false) :
    sortWith grant strategy data s =
      .ok ⟨data, s, [], some (.unsupportedLength strategy data.size)⟩ := by
  simp [sortWith, hlen]

theorem sortWith_idle (hlen : strategy.supports data.size = true)
    (hidle : strategy.idleOn data = true) :
    sortWith grant strategy data s = .ok ⟨data, s, [.sorting strategy data.size], none⟩ := by
  simp [sortWith, hlen, hidle]

theorem sortWith_refused {cause : AllocError} (hlen : strategy.supports data.size = true)
    (hidle : strategy.idleOn data = false) (hsize : s.size < data.size)
    (hgrant : grant data.size = .error cause) :
    sortWith grant strategy data s = .ok ⟨data, s, [.sorting strategy data.size],
      some (.allocationFailed data.size cause)⟩ := by
  simp [sortWith, hlen, hidle, Scratch.ensure_refused hsize hgrant]

theorem sortWith_granted (hlen : strategy.supports data.size = true)
    (hidle : strategy.idleOn data = false)
    (hgrant : s.size < data.size → grant data.size = .ok ()) :
    sortWith grant strategy data s = (do
      let done ← strategy.run data (s.borrowed data.size)
      pure ⟨done.data, (s.grownTo data.size).restore done.buffer,
        .sorting strategy data.size :: done.log, none⟩) := by
  have hsize : data.size ≤ (s.grownTo data.size).size := by
    rw [Scratch.size_grownTo]
    omega
  simp [sortWith, hlen, hidle, Scratch.ensure_granted hgrant, Scratch.first_of_le hsize,
    Scratch.borrowed]

end Outcomes

section Endings

variable {α : Type} [LE α] [DecidableLE α]

/-- The borrowed array has no influence on the run of a strategy, not even on what the run leaves
in it. -/
theorem run_eq_of_any_buffer {strategy : Strategy} {data : Array α}
    (hlen : strategy.supports data.size = true) (h2 : 2 ≤ data.size)
    (hsize : data.size < Word.largest) :
    ∃ done : Workspace α, done.buffer.size = data.size ∧
      ∀ buffer : Array α, buffer.size = data.size → strategy.run data buffer = .ok done := by
  have hlimit := Word.lt_limit_of_lt_largest hsize
  cases strategy with
  | bottomUp =>
    -- there is a first pass, and it wipes out the buffer
    have hpasses : 0 < Nat.clog 2 data.size := Nat.clog_pos Nat.one_lt_two h2
    have hsame : ∀ buffer : Array α, buffer.size = data.size →
        BottomUp.run data buffer = BottomUp.run data data := by
      intro buffer hbuffer
      rw [BottomUp.run_eq hlimit hbuffer, BottomUp.run_eq hlimit rfl,
        BottomUp.bufferAfter_congr data buffer data hpasses]
    refine ⟨_, ?_, fun buffer hbuffer => (hsame buffer hbuffer).trans (BottomUp.run_eq hlimit rfl)⟩
    exact BottomUp.size_bufferAfter rfl (Nat.clog 2 data.size)
  | fixedMid =>
    obtain ⟨k, hmid⟩ := (FixedMid.supports_iff_midpoint hlimit h2).mp hlen
    refine ⟨_, ?_, fun buffer hbuffer => FixedMid.run_eq h2 hsize hmid hbuffer⟩
    exact FixedMid.size_dataAfter hmid (Nat.le_refl (k + 1))

variable [Inhabited α]

/-- The ways in which a sort can end, each with the condition under which it does and with all that
is left then. Only a sort that was not refused and had work to do has changed anything. -/
inductive Ending (grant : Allocator) (strategy : Strategy) (data : Array α) (s : Scratch α) :
    Report α → Prop where
  | unsupported (hlen : strategy.supports data.size = false) :
    Ending grant strategy data s ⟨data, s, [], some (.unsupportedLength strategy data.size)⟩
  | idle (hlen : strategy.supports data.size = true) (hidle : strategy.idleOn data = true) :
    Ending grant strategy data s ⟨data, s, [.sorting strategy data.size], none⟩
  | refused {cause : AllocError} (hlen : strategy.supports data.size = true)
    (hidle : strategy.idleOn data = false) (hshort : s.size < data.size)
    (hgrant : grant data.size = .error cause) :
    Ending grant strategy data s
      ⟨data, s, [.sorting strategy data.size], some (.allocationFailed data.size cause)⟩
  | sorted {done : Workspace α} (hlen : strategy.supports data.size = true)
    (hidle : strategy.idleOn data = false) (hgrant : s.size < data.size → grant data.size = .ok ())
    (hbuffer : done.buffer.size = data.size)
    (hrun : ∀ buffer : Array α, buffer.size = data.size → strategy.run data buffer = .ok done) :
    Ending grant strategy data s ⟨done.data, (s.grownTo data.size).restore done.buffer,
      .sorting strategy data.size :: done.log, none⟩

/-- A sort ends, and it ends in one of these ways. -/
theorem sortWith_ending (grant : Allocator) (strategy : Strategy) {data : Array α} (s : Scratch α)
    (hsize : data.size < Word.largest) :
    ∃ r, sortWith grant strategy data s = .ok r ∧ Ending grant strategy data s r := by
  cases hlen : strategy.supports data.size with
  | false => exact ⟨_, sortWith_unsupported hlen, .unsupported hlen⟩
  | true =>
    cases hidle : strategy.idleOn data with
    | true => exact ⟨_, sortWith_idle hlen hidle, .idle hlen hidle⟩
    | false =>
      rcases s.refused_or_granted grant data.size with ⟨hshort, cause, hgrant⟩ | hgrant
      · exact ⟨_, sortWith_refused hlen hidle hshort hgrant, .refused hlen hidle hshort hgrant⟩
      · have h2 := (idleOn_eq_false_iff.mp hidle).1
        obtain ⟨done, hbuffer, hrun⟩ := run_eq_of_any_buffer hlen h2 hsize
        have hreport := sortWith_granted hlen hidle hgrant
        rw [hrun (s.borrowed data.size) (s.size_borrowed data.size), Checked.ok_bind] at hreport
        exact ⟨_, hreport, .sorted hlen hidle hgrant hbuffer hrun⟩

/-- What a sort reports is one of the endings. -/
theorem ending_of_sortWith {grant : Allocator} {strategy : Strategy} {data : Array α} {s : Scratch α}
    {r : Report α} (hsize : data.size < Word.largest)
    (hr : sortWith grant strategy data s = .ok r) : Ending grant strategy data s r := by
  obtain ⟨r', hr', hend⟩ := sortWith_ending grant strategy s hsize
  rw [hr] at hr'
  cases hr'
  exact hend

theorem Ending.success_of_granted {grant : Allocator} {strategy : Strategy} {data : Array α}
    {s : Scratch α} {r : Report α} (h : Ending grant strategy data s r)
    (hlen : strategy.supports data.size = true)
    (hgrant : s.size < data.size → grant data.size = .ok ()) : r.failure = none := by
  cases h with
  | unsupported hlen' =>
    rw [hlen] at hlen'
    cases hlen'
  | idle hlen' hidle => rfl
  | refused hlen' hidle hshort hrefused =>
    rw [hgrant hshort] at hrefused
    cases hrefused
  | sorted hlen' hidle hgrant' hbuffer hrun => rfl

/-- A prefix that is there is sorted as an array of its own, and what stands behind it is put back
unchanged. -/
theorem mergeSortPrefix_within (grant : Allocator) {data : Array α} {n : Nat} (h : n ≤ data.size) :
    mergeSortPrefix grant data n = (do
      let report ← mergeSort grant (data.extract 0 n)
      pure { report with data := report.data ++ data.extract n data.size }) := if_pos h

theorem mergeSortPrefix_beyond (grant : Allocator) {data : Array α} {n : Nat} (h : data.size < n) :
    mergeSortPrefix grant data n =
      .ok ⟨data, .empty, [], some (.prefixOutOfBounds n data.size)⟩ := if_neg (by omega)

/-- No call is a fault, whatever the elements, the scratch, the allocator and the length of the
prefix are: no slot and no range lies outside its array, no array is replaced by one of another
size, no size leaves its word, and no pass that is run leaves a slot unwritten. The bound is that of
the arrays of 32-bit numbers that fit in memory. -/
theorem sorts_never_fault (grant : Allocator) (strategy : Strategy) (data : Array α)
    (s : Scratch α) (n : Nat) (hsize : data.size < 2 ^ 61) :
    (∃ r, mergeSort grant data = .ok r) ∧ (∃ r, mergeSortPrefix grant data n = .ok r) ∧
      (∃ r, sort grant strategy data = .ok r) ∧ (∃ r, sortWith grant strategy data s = .ok r) := by
  have hends : ∀ (strategy : Strategy) (data : Array α) (s : Scratch α), data.size < 2 ^ 61 →
      ∃ r, sortWith grant strategy data s = .ok r := by
    intro strategy data s hsize
    have hword : data.size < Word.largest := Nat.lt_trans hsize (by decide)
    obtain ⟨r, hr, -⟩ := sortWith_ending grant strategy s hword
    exact ⟨r, hr⟩
  refine ⟨hends .bottomUp data .empty hsize, ?_, hends strategy data .empty hsize,
    hends strategy data s hsize⟩
  rcases Nat.lt_or_ge data.size n with hn | hn
  · exact ⟨_, mergeSortPrefix_beyond grant hn⟩
  · have hpart : (data.extract 0 n).size < 2 ^ 61 := by
      rw [Array.size_extract]
      omega
    obtain ⟨r, hr⟩ := hends .bottomUp (data.extract 0 n) .empty hpart
    rw [mergeSortPrefix_within grant hn, mergeSort, sort, hr]
    exact ⟨_, rfl⟩

/-- Seven elements, a prefix of five and a scratch that is too short. Either sort makes three passes. -/
theorem sorts_never_fault_seven :
    (#[9, -3, 7, 0, 7, 2, -8] : Array Int32).size < 2 ^ 61 ∧
      (∃ r, mergeSortPrefix .machine (#[9, -3, 7, 0, 7, 2, -8] : Array Int32) 5 = .ok r ∧
        r.log = [.sorting .bottomUp 5, .mergePass 1, .mergePass 2, .mergePass 4]) ∧
      ∃ r, sortWith .machine .fixedMid (#[9, -3, 7, 0, 7, 2, -8] : Array Int32) ⟨#[1]⟩ = .ok r ∧
        r.log = [.sorting .fixedMid 7, .fixedMidPass 1 4, .fixedMidPass 2 4, .fixedMidPass 4 4] := by
  obtain ⟨-, ⟨r, hr⟩, -, r', hr'⟩ := sorts_never_fault .machine .fixedMid
    (#[9, -3, 7, 0, 7, 2, -8] : Array Int32) ⟨#[1]⟩ 5 (by decide)
  exact ⟨by decide, ⟨r, hr, Checked.eq_of_map Report.log hr (by cbv)⟩,
    r', hr', Checked.eq_of_map Report.log hr' (by cbv)⟩

end Endings

section StaleScratch

variable {α : Type}

def Report.Starved (r : Report α) : Prop :=
  ∃ len cause, r.failure = some (.allocationFailed len cause)

variable [LE α] [DecidableLE α] [Inhabited α]

/-- Unless it starves, a sort ends as it does with every other scratch: with the same failure, data
and log, and if it borrowed an array, with the same contents in front of the scratch. -/
def Report.EndsAs (r : Report α) (strategy : Strategy) (before : Array α) (final : Workspace α)
    (failure : Option SortError) : Prop :=
  ¬r.Starved → r.failure = failure ∧ r.data = final.data ∧ r.log = final.log ∧
    (strategy.supports before.size = true → strategy.idleOn before = false →
      r.scratch.first before.size = .ok final.buffer)

/-- How a sort ends is fixed before it is known which scratch and which allocator it gets. -/
theorem sortWith_endsAs (strategy : Strategy) {data : Array α} (hsize : data.size < Word.largest) :
    ∃ final failure, ∀ grant s, ∃ r : Report α,
      sortWith grant strategy data s = .ok r ∧ r.EndsAs strategy data final failure := by
  cases hlen : strategy.supports data.size with
  | false =>
    refine ⟨⟨data, data, []⟩, some (.unsupportedLength strategy data.size), fun grant s => ?_⟩
    refine ⟨_, sortWith_unsupported hlen, fun _ => ⟨rfl, rfl, rfl, fun h => ?_⟩⟩
    rw [hlen] at h
    cases h
  | true =>
    cases hidle : strategy.idleOn data with
    | true =>
      refine ⟨⟨data, data, [.sorting strategy data.size]⟩, none, fun grant s => ?_⟩
      refine ⟨_, sortWith_idle hlen hidle, fun _ => ⟨rfl, rfl, rfl, fun _ h => ?_⟩⟩
      rw [hidle] at h
      cases h
    | false =>
      have h2 := (idleOn_eq_false_iff.mp hidle).1
      obtain ⟨done, hbuffer, hrun⟩ := run_eq_of_any_buffer hlen h2 hsize
      refine ⟨⟨done.data, done.buffer, .sorting strategy data.size :: done.log⟩, none,
        fun grant s => ?_⟩
      rcases s.refused_or_granted grant data.size with ⟨hshort, cause, hgrant⟩ | hgrant
      · exact ⟨_, sortWith_refused hlen hidle hshort hgrant,
          fun hfed => absurd ⟨data.size, cause, rfl⟩ hfed⟩
      · have hreport := sortWith_granted hlen hidle hgrant
        rw [hrun (s.borrowed data.size) (s.size_borrowed data.size), Checked.ok_bind] at hreport
        have hpart := (s.grownTo data.size).first_restore done.buffer
        rw [hbuffer] at hpart
        exact ⟨_, hreport, fun _ => ⟨rfl, rfl, rfl, fun _ _ => hpart⟩⟩

/-- A sort that is granted what it asks for does not starve. -/
theorem not_starved_of_granted {grant : Allocator} {strategy : Strategy} {data : Array α}
    {s : Scratch α} {r : Report α} (hsize : data.size < Word.largest)
    (hgrant : s.size < data.size → grant data.size = .ok ())
    (hr : sortWith grant strategy data s = .ok r) : ¬r.Starved := by
  rintro ⟨len, cause, hfailure⟩
  cases ending_of_sortWith hsize hr with
  | unsupported hlen => cases hfailure
  | idle hlen hidle => cases hfailure
  | refused hlen hidle hshort hrefused =>
    rw [hgrant hshort] at hrefused
    cases hrefused
  | sorted hlen hidle hgrant' hbuffer hrun => cases hfailure

/-- Two sorts of one array that are both given their memory tell nothing about their scratches:
failure, data and log agree, and so does every slot that was borrowed. -/
theorem sortWith_independent_of_scratch (grant grant' : Allocator) (strategy : Strategy)
    (data : Array α) (s s' : Scratch α) (hsize : data.size < Word.largest) :
    ∃ r r' : Report α, sortWith grant strategy data s = .ok r ∧
      sortWith grant' strategy data s' = .ok r' ∧
      (¬r.Starved → ¬r'.Starved → r.failure = r'.failure ∧ r.data = r'.data ∧ r.log = r'.log ∧
        (2 ≤ data.size → strategy.supports data.size = true →
          (strategy = .bottomUp → isSorted data = false) →
            ∃ part, r.scratch.first data.size = .ok part ∧
              r'.scratch.first data.size = .ok part)) := by
  obtain ⟨final, failure, hends⟩ := sortWith_endsAs strategy hsize
  obtain ⟨r, hr, hend⟩ := hends grant s
  obtain ⟨r', hr', hend'⟩ := hends grant' s'
  refine ⟨r, r', hr, hr', fun hfed hfed' => ?_⟩
  obtain ⟨hfailure, hdata, hlog, hpart⟩ := hend hfed
  obtain ⟨hfailure', hdata', hlog', hpart'⟩ := hend' hfed'
  refine ⟨hfailure.trans hfailure'.symm, hdata.trans hdata'.symm, hlog.trans hlog'.symm, ?_⟩
  intro h2 hlen hunsorted
  have hidle : strategy.idleOn data = false := idleOn_eq_false_iff.mpr ⟨h2, hunsorted⟩
  exact ⟨final.buffer, hpart hlen hidle, hpart' hlen hidle⟩

/-- Three elements, with a scratch that grows and with one that is too long. -/
theorem sortWith_independent_of_scratch_three :
    (#[3, 1, 2] : Array Int32).size < Word.largest ∧
      ∃ r r' : Report Int32, sortWith .machine .bottomUp #[3, 1, 2] ⟨#[9]⟩ = .ok r ∧
        sortWith .machine .bottomUp #[3, 1, 2] ⟨#[7, 7, 7, 7, 7]⟩ = .ok r' ∧
        r.data = r'.data ∧
        ∃ part, r.scratch.first 3 = .ok part ∧ r'.scratch.first 3 = .ok part := by
  obtain ⟨r, r', hr, hr', hsame⟩ := sortWith_independent_of_scratch .machine .machine .bottomUp
    (#[3, 1, 2] : Array Int32) ⟨#[9]⟩ ⟨#[7, 7, 7, 7, 7]⟩ (by decide)
  have hfed : ¬r.Starved := not_starved_of_granted (by decide) (fun _ => rfl) hr
  have hfed' : ¬r'.Starved := not_starved_of_granted (by decide) (fun _ => rfl) hr'
  obtain ⟨-, hdata, -, hpart⟩ := hsame hfed hfed'
  exact ⟨by decide, r, r', hr, hr', hdata, hpart (by decide) rfl (fun _ => by decide)⟩

end StaleScratch

end RunMerge
