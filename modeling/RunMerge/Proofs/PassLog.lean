import RunMerge.Proofs.Refusals

/-!
# The log tells the schedule

The passes of a sort are known before it starts: their widths are the powers of two below the
length. So the log of a sort that succeeds is a function of the strategy, the length and, for the
bottom-up strategy, of whether there is anything to do. The loops of the passes carry guards that
stop them if they do not advance; on positive widths no guard ever ends a loop.
-/

namespace RunMerge

def Strategy.passEvent : Strategy → (n width : Nat) → Event
  | .bottomUp, _, width => .mergePass width
  | .fixedMid, n, width => .fixedMidPass width ((n + 1) / 2)

/-- The events of all passes over `n` elements. There are as many passes as doublings of one that it
takes to reach `n`. -/
def Strategy.passEvents (strategy : Strategy) (n : Nat) : List Event :=
  (List.range (Nat.clog 2 n)).map fun e => strategy.passEvent n (2 ^ e)

variable {α : Type} [LE α] [DecidableLE α]

/-- The log of a sort that succeeds. There are no passes over fewer than two elements, and no
bottom-up passes over elements that are in order already. -/
def Strategy.fullLog (strategy : Strategy) (data : Array α) : List Event :=
  .sorting strategy data.size ::
    if 2 ≤ data.size ∧ (strategy = .fixedMid ∨ ¬data.toList.Pairwise (· ≤ ·)) then
      strategy.passEvents data.size
    else
      []

structure TellsSchedule (strategy : Strategy) (data : Array α) (log : List Event) : Prop where
  eq_fullLog : log = strategy.fullLog data
  levels : log.map Event.level = .debug :: List.replicate (log.length - 1) .trace
  last_eq : strategy = .fixedMid → 2 ≤ data.size →
    log.getLast? = some (.fixedMidPass ((data.size + 1) / 2) ((data.size + 1) / 2))

/-- The loops over `n` elements go on just as long as their own conditions say. No guard cuts one
short, and so the guards hide no loop that would go on for ever. -/
structure LoopsAdvance (α : Type) [LE α] [DecidableLE α] (n : Nat) : Prop where
  schedule : ∀ width, 0 < width → widthsFrom n width =
    if width < n then width :: widthsFrom n (Word.satMul width 2) else []
  windows : ∀ width left, 0 < width → BottomUp.windowsFrom n width left =
    if left < n then
      .startingAt n width left ::
        BottomUp.windowsFrom n width (BottomUp.Window.startingAt n width left).right
    else []
  steps : ∀ (src : Array α) (mid width step : Nat) (c : Cursor α), 0 < width →
    FixedMid.mergeSteps src mid width step c =
      if step ≤ mid then do
        let c ← FixedMid.mergeStep src mid step c
        Word.fits (step + width)
        FixedMid.mergeSteps src mid width (step + width) c
      else pure c

/-- A width below the length has room to grow. -/
theorem widthsFrom_eq_ite {n width : Nat} (hn : n < Word.limit) (hwidth : 0 < width) :
    widthsFrom n width = if width < n then width :: widthsFrom n (Word.satMul width 2) else [] := by
  rw [widthsFrom]
  refine ite_congr (propext ⟨And.left, fun hlt => ⟨hlt, ?_⟩⟩) (fun _ => rfl) (fun _ => rfl)
  simp only [Word.satMul, Word.largest]
  omega

theorem loopsAdvance {n : Nat} (hn : n < Word.limit) : LoopsAdvance α n where
  schedule _ hwidth := widthsFrom_eq_ite hn hwidth
  windows _ left hwidth := BottomUp.windowsFrom_eq_ite hn hwidth left
  steps src mid width step c hwidth := by
    rw [FixedMid.mergeSteps]
    exact ite_congr (propext (and_iff_right hwidth)) (fun _ => rfl) (fun _ => rfl)

theorem Strategy.level_passEvent (strategy : Strategy) (n width : Nat) :
    (strategy.passEvent n width).level = .trace := by
  cases strategy <;> rfl

theorem Strategy.map_level_passEvents (strategy : Strategy) (n : Nat) :
    (strategy.passEvents n).map Event.level =
      List.replicate (strategy.passEvents n).length .trace := by
  rw [passEvents, List.map_map, List.length_map, List.map_eq_replicate_iff]
  exact fun e _ => strategy.level_passEvent n (2 ^ e)

/-- A full log depends on the length and, for the bottom-up strategy, on whether the elements are in
order. -/
theorem Strategy.fullLog_congr {strategy : Strategy} {data data' : Array α}
    (hsize : data'.size = data.size)
    (horder : strategy = .bottomUp →
      (data'.toList.Pairwise (· ≤ ·) ↔ data.toList.Pairwise (· ≤ ·))) :
    strategy.fullLog data' = strategy.fullLog data := by
  cases strategy with
  | bottomUp => simp only [fullLog, hsize, horder rfl]
  | fixedMid => simp only [fullLog, hsize, true_or]

/-- Both strategies log what they do and nothing else. -/
theorem log_of_run {strategy : Strategy} {data buffer : Array α} {done : Workspace α}
    (hlen : strategy.supports data.size = true) (h2 : 2 ≤ data.size)
    (hsize : data.size < Word.largest) (hbuffer : buffer.size = data.size)
    (hrun : strategy.run data buffer = .ok done) : done.log = strategy.passEvents data.size := by
  have hlimit := Word.lt_limit_of_lt_largest hsize
  cases strategy with
  | bottomUp =>
    rw [Strategy.run, BottomUp.run_eq hlimit hbuffer] at hrun
    cases hrun
    rfl
  | fixedMid =>
    obtain ⟨k, hmid⟩ := (FixedMid.supports_iff_midpoint hlimit h2).mp hlen
    rw [Strategy.run, FixedMid.run_eq h2 hsize hmid hbuffer, ← FixedMid.clog_of_midpoint h2 hmid,
      ← hmid] at hrun
    cases hrun
    rfl

/-- The last of the fixed-mid passes is the one as wide as the left half. -/
theorem getLast?_passEvents_fixedMid {n : Nat} (hlen : Strategy.supports .fixedMid n = true)
    (h2 : 2 ≤ n) (hn : n < Word.limit) :
    (Strategy.passEvents .fixedMid n).getLast? =
      some (.fixedMidPass ((n + 1) / 2) ((n + 1) / 2)) := by
  obtain ⟨k, hmid⟩ := (FixedMid.supports_iff_midpoint hn h2).mp hlen
  rw [Strategy.passEvents, FixedMid.clog_of_midpoint h2 hmid, List.range_succ, List.map_append,
    List.map_singleton, List.getLast?_concat, ← hmid]
  rfl

/-- The start is logged at one level and all passes at another. -/
theorem map_level_fullLog (strategy : Strategy) (data : Array α) :
    (strategy.fullLog data).map Event.level =
      .debug :: List.replicate ((strategy.fullLog data).length - 1) .trace := by
  rw [Strategy.fullLog]
  split
  · rw [List.map_cons, Strategy.map_level_passEvents, List.length_cons, Nat.add_sub_cancel]
    rfl
  · rfl

variable [Inhabited α] [Std.IsLinearPreorder α]
variable {grant : Allocator} {strategy : Strategy} {data : Array α} {s : Scratch α} {r : Report α}

omit [Std.IsLinearPreorder α] in
theorem Ending.supports_of_success (h : Ending grant strategy data s r) (hok : r.failure = none) :
    strategy.supports data.size = true := by
  cases h with
  | unsupported hlen => cases hok
  | idle hlen hidle => exact hlen
  | refused hlen hidle hshort hgrant => exact hlen
  | sorted hlen hidle hgrant hbuffer hrun => exact hlen

theorem Ending.log_eq (h : Ending grant strategy data s r) (hsize : data.size < Word.largest)
    (hok : r.failure = none) : r.log = strategy.fullLog data := by
  cases h with
  | unsupported hlen => cases hok
  | idle hlen hidle =>
    have hwork : ¬(2 ≤ data.size ∧ (strategy = .fixedMid ∨ ¬data.toList.Pairwise (· ≤ ·))) := by
      rw [← idleOn_eq_false_iff_unordered, hidle]
      exact Bool.noConfusion
    rw [Strategy.fullLog, if_neg hwork]
  | refused hlen hidle hshort hgrant => cases hok
  | @sorted done hlen hidle hgrant hbuffer hrun =>
    have hwork := idleOn_eq_false_iff_unordered.mp hidle
    rw [Strategy.fullLog, if_pos hwork, log_of_run hlen hwork.1 hsize rfl (hrun data rfl)]

theorem Ending.tellsSchedule (h : Ending grant strategy data s r) (hsize : data.size < Word.largest)
    (hok : r.failure = none) : TellsSchedule strategy data r.log where
  eq_fullLog := h.log_eq hsize hok
  levels := by
    rw [h.log_eq hsize hok]
    exact map_level_fullLog strategy data
  last_eq hfixed h2 := by
    have hlen := h.supports_of_success hok
    rw [hfixed] at hlen
    rw [h.log_eq hsize hok, Strategy.fullLog, if_pos ⟨h2, .inl hfixed⟩, hfixed, List.getLast?_cons,
      getLast?_passEvents_fixedMid hlen h2 (Word.lt_limit_of_lt_largest hsize)]
    rfl

/-- A sort ends, and if it was not refused it has logged its start and the passes of the schedule.
So the log depends on no more than the length and, for the bottom-up strategy, on whether the
elements were in order; it tells nothing of the scratch or the allocator. The schedule itself is the
same for every length that a word holds: saturation adds no pass, drops none and repeats none. -/
theorem log_tells_schedule (grant : Allocator) (strategy : Strategy) (data : Array α) (s : Scratch α)
    (hsize : data.size < 2 ^ 61) :
    (∃ r, sortWith grant strategy data s = .ok r ∧
        (strategy.supports data.size = true → (s.size < data.size → grant data.size = .ok ()) →
          r.failure = none) ∧
        (r.failure = none → TellsSchedule strategy data r.log)) ∧
      (∀ (grant' : Allocator) (data' : Array α) (s' : Scratch α) (r r' : Report α),
        data'.size = data.size →
          (strategy = .bottomUp →
            (data'.toList.Pairwise (· ≤ ·) ↔ data.toList.Pairwise (· ≤ ·))) →
          sortWith grant strategy data s = .ok r → sortWith grant' strategy data' s' = .ok r' →
            r.failure = none → r'.failure = none → r'.log = r.log) ∧
      ∀ n < Word.limit, widths n = (List.range (Nat.clog 2 n)).map (2 ^ ·) ∧ LoopsAdvance α n := by
  have hword : data.size < Word.largest := Nat.lt_trans hsize (by decide)
  obtain ⟨r, hr, hend⟩ := sortWith_ending grant strategy s hword
  refine ⟨⟨r, hr, hend.success_of_granted, hend.tellsSchedule hword⟩, ?_,
    fun n hn => ⟨widths_eq hn, loopsAdvance hn⟩⟩
  intro grant' data' s' q q' hsize' horder hq hq' hok hok'
  have hword' : data'.size < Word.largest := hsize' ▸ hword
  rw [(ending_of_sortWith hword hq).log_eq hword hok,
    (ending_of_sortWith hword' hq').log_eq hword' hok', Strategy.fullLog_congr hsize' horder]

/-- Five elements, one more than a power of two, seven, one less, and the longest schedule. -/
theorem log_tells_schedule_five_seven :
    ((#[5, 4, 3, 2, 1] : Array Int32).size < 2 ^ 61 ∧
      ∃ r, sortWith .machine .bottomUp (#[5, 4, 3, 2, 1] : Array Int32) ⟨#[9]⟩ = .ok r ∧
        r.failure = none ∧
          r.log = [.sorting .bottomUp 5, .mergePass 1, .mergePass 2, .mergePass 4]) ∧
      (∃ r, sortWith .machine .fixedMid (#[9, -3, 7, 0, 7, 2, -8] : Array Int32) .empty = .ok r ∧
        r.failure = none ∧ r.log = [.sorting .fixedMid 7, .fixedMidPass 1 4, .fixedMidPass 2 4,
          .fixedMidPass 4 4]) ∧
      widths Word.largest = (List.range 64).map (2 ^ ·) := by
  obtain ⟨⟨r, hr, hgranted, htells⟩, -, hschedule⟩ := log_tells_schedule .machine .bottomUp
    (#[5, 4, 3, 2, 1] : Array Int32) ⟨#[9]⟩ (by decide)
  obtain ⟨⟨r', hr', hgranted', htells'⟩, -⟩ := log_tells_schedule .machine .fixedMid
    (#[9, -3, 7, 0, 7, 2, -8] : Array Int32) .empty (by decide)
  have hok := hgranted rfl fun _ => rfl
  have hok' := hgranted' (by decide) fun _ => rfl
  refine ⟨⟨by decide, r, hr, hok, ?_⟩, ⟨r', hr', hok', ?_⟩, ?_⟩
  · exact (htells hok).eq_fullLog.trans (by decide)
  · exact (htells' hok').eq_fullLog.trans (by decide)
  · exact (hschedule Word.largest (by decide)).1.trans (by rfl)

end RunMerge
