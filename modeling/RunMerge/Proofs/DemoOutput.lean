import RunMerge.Demo
import RunMerge.Proofs.PassLog
import RunMerge.Proofs.SortedOutput

/-!
# What the demonstration leaves on a sink

A sink may cut up what it is offered and interrupt the calls, but that is not seen in the end: it has
taken the bytes that it had room for, in order and each of them once, and the writer is told of a failure
just when there was not room for all. `Sink.Takes` says so of one offer. Two offers, of which the second
is made only if all of the first was taken, are one offer of both.

The demonstration writes two lines, each as its numbers and then the end of the line, and a sink may cut
these four pieces as it likes. What arrives is the text up to where the room ends. How much room there
is decides all else: whether the sort is reached, whether the flush is, and what the caller is told.
-/

namespace RunMerge

def Refusal.reason : Refusal → IoError
  | .error e => e
  | .silent => .nothingWritten

namespace Sink

/-- However few bytes a call takes, it takes one at least, and when there is no room it does not ask to
be tried again. -/
structure Advances (s : Sink) : Prop where
  chunk_pos : ∀ bound ∈ s.chunk, 0 < bound
  refusal_final : ∀ e, s.refusal = .error e → e.kind ≠ .interrupted

def HasRoom (s : Sink) (bytes : List UInt8) : Prop := ∀ bound ∈ s.budget, bytes.length ≤ bound

instance (s : Sink) (bytes : List UInt8) : Decidable (s.HasRoom bytes) :=
  inferInstanceAs (Decidable (∀ bound ∈ s.budget, bytes.length ≤ bound))

def fitting (s : Sink) (bytes : List UInt8) : List UInt8 := bytes.take (cap bytes.length s.budget)

def taking (s : Sink) (bytes : List UInt8) : Sink :=
  { s with budget := s.budget.map (· - bytes.length), written := s.written ++ bytes }

def withNext (s : Sink) (next : Bool) : Sink := { s with interruptNext := next }

/-- An offer has ended as its length and the room say, whatever pieces the bytes were taken in. Whether
the next call is interrupted is left open. -/
def Takes (s : Sink) (bytes : List UInt8) (outcome : Except IoError Unit × Sink) : Prop :=
  ∃ next, outcome = (if s.HasRoom bytes then .ok () else .error s.refusal.reason,
    (s.taking (s.fitting bytes)).withNext next)

inductive Wrote (s : Sink) (bytes : List UInt8) : WriteResult → Sink → Prop where
  | interrupted : Wrote s bytes .interrupted (s.withNext false)
  | failed {e : IoError} (hfull : s.budget = some 0) (hrefusal : s.refusal = .error e) :
    Wrote s bytes (.failed e) (s.withNext s.interrupts)
  | nothing (hfull : s.budget = some 0) (hrefusal : s.refusal = .silent) :
    Wrote s bytes (.accepted 0) (s.withNext s.interrupts)
  | took {count : Nat} (hpos : 0 < count) (hcount : count ≤ bytes.length)
    (hroom : s.HasRoom (bytes.take count)) :
    Wrote s bytes (.accepted count) ((s.taking (bytes.take count)).withNext s.interrupts)

variable {s t : Sink} {xs ys bytes : List UInt8}

theorem cap_le (n : Nat) (bound : Option Nat) : cap n bound ≤ n := by
  cases bound with
  | none => exact Nat.le_refl n
  | some b => exact Nat.min_le_left n b

theorem cap_le_of_mem {n b : Nat} {bound : Option Nat} (h : b ∈ bound) : cap n bound ≤ b := by
  cases h
  exact Nat.min_le_right n b

theorem cap_eq_zero_iff {n : Nat} {bound : Option Nat} :
    cap n bound = 0 ↔ n = 0 ∨ bound = some 0 := by
  cases bound with
  | none => simp [cap]
  | some b =>
    simp only [cap, Option.some.injEq]
    omega

theorem fitting_of_hasRoom (h : s.HasRoom bytes) : s.fitting bytes = bytes := by
  rw [fitting]
  cases hb : s.budget with
  | none => exact List.take_length
  | some b => rw [cap, Nat.min_eq_left (h b hb), List.take_length]

theorem hasRoom_append_iff (h : s.HasRoom xs) :
    s.HasRoom (xs ++ ys) ↔ (s.taking xs).HasRoom ys := by
  cases hb : s.budget with
  | none => simp [HasRoom, taking, hb]
  | some b =>
    have hxs : xs.length ≤ b := h b hb
    simp only [HasRoom, taking, hb, Option.map_some, Option.mem_some, forall_eq', List.length_append]
    omega

theorem fitting_append (h : s.HasRoom xs) :
    s.fitting (xs ++ ys) = xs ++ (s.taking xs).fitting ys := by
  rw [fitting, fitting, List.take_append]
  cases hb : s.budget with
  | none => simp [cap, taking, hb, List.take_of_length_le]
  | some b =>
    have hxs : xs.length ≤ b := h b hb
    have hall : xs.length ≤ min (xs.length + ys.length) b := by omega
    have hrest : min (xs.length + ys.length) b - xs.length = min ys.length (b - xs.length) := by omega
    simp only [cap, taking, hb, Option.map_some, List.length_append, hrest, List.take_of_length_le hall]

theorem taking_nil (s : Sink) : s.taking [] = s := by simp [taking]

theorem taking_append (s : Sink) (xs ys : List UInt8) :
    (s.taking xs).taking ys = s.taking (xs ++ ys) := by
  simp [taking, Nat.sub_sub, Function.comp_def]

/-- What did not fit leaves no room for what comes behind it. -/
theorem fitting_append_of_not_hasRoom (h : ¬s.HasRoom xs) :
    s.fitting (xs ++ ys) = s.fitting xs ∧ ¬s.HasRoom (xs ++ ys) := by
  cases hb : s.budget with
  | none => simp [HasRoom, hb] at h
  | some b =>
    have hxs : b < xs.length := by simpa [HasRoom, hb] using h
    have hshort : b - xs.length = 0 := by omega
    constructor
    · have hcap : min (xs.length + ys.length) b = min xs.length b := by omega
      have hnone : min xs.length b - xs.length = 0 := by omega
      simp only [fitting, hb, cap, List.length_append, hcap, List.take_append, hnone, List.take_zero,
        List.append_nil]
    · simp only [HasRoom, hb, Option.mem_some, forall_eq', List.length_append]
      omega

theorem Takes.of_hasRoom {outcome : Except IoError Unit × Sink} (h : s.Takes bytes outcome)
    (hroom : s.HasRoom bytes) : ∃ next, outcome = (.ok (), (s.taking bytes).withNext next) := by
  obtain ⟨next, rfl⟩ := h
  exact ⟨next, by rw [if_pos hroom, fitting_of_hasRoom hroom]⟩

theorem Takes.of_not_hasRoom {outcome : Except IoError Unit × Sink} (h : s.Takes bytes outcome)
    (hroom : ¬s.HasRoom bytes) :
    ∃ next, outcome = (.error s.refusal.reason, (s.taking (s.fitting bytes)).withNext next) := by
  obtain ⟨next, rfl⟩ := h
  exact ⟨next, by rw [if_neg hroom]⟩

/-- An offer that goes on after some of it was taken. -/
theorem Takes.after_taking {next : Bool} {outcome : Except IoError Unit × Sink} (h : s.HasRoom xs)
    (htakes : ((s.taking xs).withNext next).Takes ys outcome) : s.Takes (xs ++ ys) outcome := by
  obtain ⟨next', rfl⟩ := htakes
  refine ⟨next', ?_⟩
  rw [fitting_append h, ← taking_append]
  simp only [hasRoom_append_iff h]
  rfl

theorem write_wrote {result : WriteResult} (hs : s.Advances) (hbytes : bytes ≠ [])
    (h : s.write bytes = (result, t)) : s.Wrote bytes result t := by
  have hlength : bytes.length ≠ 0 := mt List.length_eq_zero_iff.mp hbytes
  have hchunk : cap bytes.length s.chunk ≠ 0 := by
    rw [Ne, cap_eq_zero_iff]
    rintro (hzero | hzero)
    · exact hlength hzero
    · exact absurd (hs.chunk_pos 0 hzero) (Nat.lt_irrefl 0)
  unfold write at h
  split at h
  · cases h
    exact .interrupted
  · dsimp only at h
    split at h
    · next hnone =>
      have hfull : s.budget = some 0 := (cap_eq_zero_iff.mp hnone.1).resolve_left hchunk
      split at h
      · next e hrefusal =>
        cases h
        exact .failed hfull hrefusal
      · next hrefusal =>
        cases h
        exact .nothing hfull hrefusal
    · next hsome =>
      have hcount : cap (cap bytes.length s.chunk) s.budget ≤ bytes.length :=
        Nat.le_trans (cap_le _ _) (cap_le _ _)
      have hpos : cap (cap bytes.length s.chunk) s.budget ≠ 0 := by
        intro hzero
        have hfull := (cap_eq_zero_iff.mp hzero).resolve_left hchunk
        exact hsome ⟨hzero, hbytes, by rw [hfull]; rfl⟩
      have htaken : (bytes.take (cap (cap bytes.length s.chunk) s.budget)).length =
          cap (cap bytes.length s.chunk) s.budget := List.length_take_of_le hcount
      have hroom : s.HasRoom (bytes.take (cap (cap bytes.length s.chunk) s.budget)) := by
        intro b hb
        rw [htaken]
        exact cap_le_of_mem hb
      have htook := Wrote.took (Nat.pos_of_ne_zero hpos) hcount hroom
      rw [taking, htaken] at htook
      cases h
      exact htook

theorem Advances.taking (hs : s.Advances) (bytes : List UInt8) : (s.taking bytes).Advances :=
  ⟨hs.chunk_pos, hs.refusal_final⟩

theorem Advances.withNext (hs : s.Advances) (next : Bool) : (s.withNext next).Advances :=
  ⟨hs.chunk_pos, hs.refusal_final⟩

theorem Advances.reason_final (hs : s.Advances) : s.refusal.reason.kind ≠ .interrupted := by
  cases hrefusal : s.refusal with
  | error e => exact hs.refusal_final e hrefusal
  | silent => decide

/-- A sink without room takes nothing of what it is offered. -/
theorem takes_of_full (hfull : s.budget = some 0) (hbytes : bytes ≠ []) (next : Bool) :
    s.Takes bytes (.error s.refusal.reason, s.withNext next) := by
  have hlength : bytes.length ≠ 0 := mt List.length_eq_zero_iff.mp hbytes
  have hroom : ¬s.HasRoom bytes := fun h => hlength (Nat.le_zero.mp (h 0 hfull))
  have hnone : s.fitting bytes = [] := by
    rw [fitting, hfull, cap, Nat.min_zero, List.take_zero]
  refine ⟨next, ?_⟩
  rw [if_neg hroom, hnone, taking_nil]

/-- Bytes that are offered until all are taken, or until the sink refuses, end in a sink that has taken
what it had room for. The induction follows the calls. -/
theorem writeAll_takes (s : Sink) (bytes : List UInt8) (hs : s.Advances) :
    s.Takes bytes (s.writeAll bytes) := by
  fun_induction writeAll s bytes with
  | case1 s =>
    have hroom : s.HasRoom [] := fun bound _ => Nat.zero_le bound
    refine ⟨s.interruptNext, ?_⟩
    rw [if_pos hroom, fitting_of_hasRoom hroom, taking_nil]
    rfl
  | case2 s bytes hbytes t h ih =>
    cases write_wrote hs hbytes h with
    | interrupted => exact ih (hs.withNext false)
  | case3 s bytes hbytes e t h =>
    cases write_wrote hs hbytes h with
    | failed hfull hrefusal =>
      have htakes := takes_of_full hfull hbytes s.interrupts
      rwa [hrefusal] at htakes
  | case4 s bytes hbytes t h =>
    cases write_wrote hs hbytes h with
    | nothing hfull hrefusal =>
      have htakes := takes_of_full hfull hbytes s.interrupts
      rwa [hrefusal] at htakes
    | took hpos => cases hpos
  | case5 s bytes hbytes count t h ih =>
    cases write_wrote hs hbytes h with
    | took hpos hcount hroom =>
      have htakes := Takes.after_taking hroom (ih ((hs.taking _).withNext _))
      rwa [List.take_append_drop] at htakes

/-- Two offers, the second of which is made if the first one was taken, are one. -/
theorem writeAll_writeAll_takes (s : Sink) (xs ys : List UInt8) (hs : s.Advances) :
    s.Takes (xs ++ ys) (match s.writeAll xs with
      | (.ok (), t) => t.writeAll ys
      | refused => refused) := by
  have hfirst := writeAll_takes s xs hs
  by_cases hroom : s.HasRoom xs
  · obtain ⟨next, hwritten⟩ := hfirst.of_hasRoom hroom
    rw [hwritten]
    exact Takes.after_taking hroom (writeAll_takes _ ys ((hs.taking xs).withNext next))
  · obtain ⟨next, hwritten⟩ := hfirst.of_not_hasRoom hroom
    obtain ⟨hfitting, hshort⟩ := @fitting_append_of_not_hasRoom s xs ys hroom
    refine ⟨next, ?_⟩
    rw [hwritten, if_neg hshort, hfitting]

end Sink

namespace Demo

def text : List UInt8 := Text.bytes "8 4 2 1 7 6 5 4\n1 2 4 4 5 6 7 8\n".toList

def lineBytes (values : Array Int32) : List UInt8 :=
  Text.bytes (Line.chars values.toList) ++ Text.bytes ['\n']

/-- How the demonstration ends on a sink, if its sort logs `sortLog`. The sink has taken as much of the
text as there was room for. If it was not all, the caller is told why and nothing was flushed; if it was,
the flush decides. The sort comes after the first line. -/
structure EndsOn (s : Sink) (sortLog : List Event) (outcome : Outcome) : Prop where
  written_eq : outcome.sink.written = s.written ++ s.fitting text
  failure_of_room : s.HasRoom text → outcome.failure = s.flushError.map .output
  flushes_of_room : s.HasRoom text → outcome.sink.flushes = s.flushes + 1
  failure_of_short : ¬s.HasRoom text → outcome.failure = some (.output s.refusal.reason)
  flushes_of_short : ¬s.HasRoom text → outcome.sink.flushes = s.flushes
  log_eq : outcome.log =
    if s.HasRoom (lineBytes input) then sortLog ++ [.demoSorted input.size] else []

def sorted : Array Int32 := #[1, 2, 4, 4, 5, 6, 7, 8]

theorem lineBytes_append : lineBytes input ++ lineBytes sorted = text := by decide

/-- With memory for eight numbers the sort succeeds, and it makes all three passes. -/
theorem mergeSort_input {grant : Allocator} (hgrant : grant 8 = .ok ()) :
    ∃ report, mergeSort grant input = .ok report ∧ report.failure = none ∧ report.data = sorted ∧
      report.log = [.sorting .bottomUp 8, .mergePass 1, .mergePass 2, .mergePass 4] := by
  obtain ⟨report, hr, hend⟩ := sortWith_ending grant .bottomUp (.empty : Scratch Int32)
    (by decide : input.size < Word.largest)
  have hok : report.failure = none := hend.success_of_granted rfl fun _ => hgrant
  have hsorts := sortWith_bottomUp_sorts grant .empty (by decide : input.size < Word.limit)
  have hdata : report.data.toList = sorted.toList :=
    (hsorts.sorted hr hok).eq_reference.trans (mergeSort_eq_of_sorted (by decide) (by decide))
  have hlog := hend.log_eq (by decide) hok
  exact ⟨report, hr, hok, Array.toList_inj.mp hdata, hlog.trans (by decide)⟩

variable {s : Sink} {grant : Allocator}

theorem writeLine_takes (hs : s.Advances) (values : Array Int32) :
    s.Takes (lineBytes values) (writeLine s values) :=
  s.writeAll_writeAll_takes _ _ hs

/-- The end of the demonstration, if there is room for the second line. -/
theorem finish_of_hasRoom (hs : s.Advances) {values : Array Int32}
    (hroom : s.HasRoom (lineBytes values)) (log : List Event) :
    ∃ next, finish s log values =
      ⟨{ (s.taking (lineBytes values)).withNext next with flushes := s.flushes + 1 }, log,
        s.flushError.map .output⟩ := by
  obtain ⟨next, hline⟩ := (writeLine_takes hs values).of_hasRoom hroom
  refine ⟨next, ?_⟩
  rw [finish, hline]
  cases hflush : s.flushError with
  | none => simp [Sink.flush, Sink.taking, Sink.withNext, hflush]
  | some e => simp [Sink.flush, Sink.taking, Sink.withNext, hflush]

/-- The end of the demonstration, if there is not. -/
theorem finish_of_not_hasRoom (hs : s.Advances) {values : Array Int32}
    (hroom : ¬s.HasRoom (lineBytes values)) (log : List Event) :
    ∃ next, finish s log values =
      ⟨(s.taking (s.fitting (lineBytes values))).withNext next, log,
        some (.output s.refusal.reason)⟩ := by
  obtain ⟨next, hline⟩ := (writeLine_takes hs values).of_not_hasRoom hroom
  refine ⟨next, ?_⟩
  rw [finish, hline]

/-- Without room for the first line nothing is sorted. -/
theorem endsOn_of_short_input (hs : s.Advances) (sortLog : List Event)
    (hroom : ¬s.HasRoom (lineBytes input)) :
    ∃ outcome, run grant s = .ok outcome ∧ EndsOn s sortLog outcome := by
  obtain ⟨next, hline⟩ := (writeLine_takes hs input).of_not_hasRoom hroom
  have hrun : run grant s = .ok ⟨(s.taking (s.fitting (lineBytes input))).withNext next, [],
      some (.output s.refusal.reason)⟩ := by
    rw [run, hline]
    rfl
  obtain ⟨hfitting, hshort⟩ := @Sink.fitting_append_of_not_hasRoom s _ (lineBytes sorted) hroom
  rw [lineBytes_append] at hfitting hshort
  refine ⟨_, hrun, ?_⟩
  constructor
  case written_eq => rw [hfitting]; rfl
  case failure_of_short => exact fun _ => rfl
  case flushes_of_short => exact fun _ => rfl
  case log_eq => rw [if_neg hroom]
  all_goals exact fun h => absurd h hshort

/-- With room for the first line the sort is reached, and the second line decides. -/
theorem endsOn_of_input (hs : s.Advances) {report : Report Int32}
    (hsort : mergeSort grant input = .ok report) (hok : report.failure = none)
    (hdata : report.data = sorted) (hroom : s.HasRoom (lineBytes input)) :
    ∃ outcome, run grant s = .ok outcome ∧ EndsOn s report.log outcome := by
  obtain ⟨next, hline⟩ := (writeLine_takes hs input).of_hasRoom hroom
  have hrun : run grant s = .ok (finish ((s.taking (lineBytes input)).withNext next)
      (report.log ++ [.demoSorted input.size]) sorted) := by
    rw [run, hline]
    simp only [hsort, Checked.ok_bind, hok, hdata]
    rfl
  have hboth : s.HasRoom text ↔ (s.taking (lineBytes input)).HasRoom (lineBytes sorted) := by
    rw [← lineBytes_append]
    exact Sink.hasRoom_append_iff hroom
  have hfitting : s.fitting text =
      lineBytes input ++ (s.taking (lineBytes input)).fitting (lineBytes sorted) := by
    rw [← lineBytes_append]
    exact Sink.fitting_append hroom
  by_cases hrest : (s.taking (lineBytes input)).HasRoom (lineBytes sorted)
  · obtain ⟨next', hfinish⟩ := @finish_of_hasRoom ((s.taking (lineBytes input)).withNext next)
      ((hs.taking _).withNext next) sorted hrest (report.log ++ [.demoSorted input.size])
    rw [hfinish] at hrun
    refine ⟨_, hrun, ?_⟩
    constructor
    case written_eq =>
      rw [hfitting, Sink.fitting_of_hasRoom hrest, ← List.append_assoc]
      rfl
    case failure_of_room => exact fun _ => rfl
    case flushes_of_room => exact fun _ => rfl
    case log_eq => rw [if_pos hroom]
    all_goals exact fun h => absurd (hboth.mpr hrest) h
  · obtain ⟨next', hfinish⟩ := @finish_of_not_hasRoom ((s.taking (lineBytes input)).withNext next)
      ((hs.taking _).withNext next) sorted hrest (report.log ++ [.demoSorted input.size])
    rw [hfinish] at hrun
    refine ⟨_, hrun, ?_⟩
    constructor
    case written_eq =>
      rw [hfitting, ← List.append_assoc]
      rfl
    case failure_of_short => exact fun _ => rfl
    case flushes_of_short => exact fun _ => rfl
    case log_eq => rw [if_pos hroom]
    all_goals exact fun h => absurd (hboth.mp h) hrest

/-- The demonstration on any sink that takes a byte at least when there is room for one. -/
theorem run_endsOn (hgrant : grant 8 = .ok ()) (hs : s.Advances) :
    ∃ report outcome, mergeSort grant input = .ok report ∧
      report.log = [.sorting .bottomUp 8, .mergePass 1, .mergePass 2, .mergePass 4] ∧
      run grant s = .ok outcome ∧ EndsOn s report.log outcome := by
  obtain ⟨report, hsort, hok, hdata, hlog⟩ := mergeSort_input hgrant
  by_cases hroom : s.HasRoom (lineBytes input)
  · obtain ⟨outcome, hrun, hends⟩ := endsOn_of_input hs hsort hok hdata hroom
    exact ⟨report, outcome, hsort, hlog, hrun, hends⟩
  · obtain ⟨outcome, hrun, hends⟩ := endsOn_of_short_input hs report.log hroom
    exact ⟨report, outcome, hsort, hlog, hrun, hends⟩

/-- The sink gets the beginning of the text that its budget allows, in calls of whatever size and with
interruptions or without. A budget that is too small is reported as the sink refuses, and nothing is
flushed; otherwise the flush is the end of the demonstration and can be its only failure. The log is
empty unless the first line has been written. -/
theorem output_follows_budget (grant : Allocator) (chunk budget : Option Nat) (refusal : Refusal)
    (interrupts : Bool) (flushError : Option IoError) (hgrant : grant 8 = .ok ())
    (hchunk : ∀ bound ∈ chunk, 1 ≤ bound) (hfinal : ∀ e, refusal = .error e → e.kind ≠ .interrupted) :
    text.length = 32 ∧ ∃ report outcome, mergeSort grant input = .ok report ∧
      report.log = [.sorting .bottomUp 8, .mergePass 1, .mergePass 2, .mergePass 4] ∧
      run grant (.fresh chunk budget refusal interrupts flushError) = .ok outcome ∧
      outcome.sink.written = text.take (Sink.cap 32 budget) ∧
      ((∀ room ∈ budget, 32 ≤ room) →
        outcome.failure = flushError.map .output ∧ outcome.sink.flushes = 1) ∧
      (∀ room ∈ budget, room < 32 → outcome.sink.flushes = 0 ∧
        ∃ e, outcome.failure = some (.output e) ∧ e.kind ≠ .interrupted ∧
          (∀ e', refusal = .error e' → e = e') ∧ (refusal = .silent → e.kind = .writeZero)) ∧
      ((∀ room ∈ budget, 16 ≤ room) → outcome.log = report.log ++ [.demoSorted 8]) ∧
      ∀ room ∈ budget, room < 16 → outcome.log = [] := by
  have htext : text.length = 32 := by decide
  have hline : (lineBytes input).length = 16 := by decide
  have hs : (Sink.fresh chunk budget refusal interrupts flushError).Advances := ⟨hchunk, hfinal⟩
  obtain ⟨report, outcome, hsort, hlog, hrun, hends⟩ := run_endsOn hgrant hs
  have hroom : (Sink.fresh chunk budget refusal interrupts flushError).HasRoom text ↔
      ∀ room ∈ budget, 32 ≤ room := by
    rw [Sink.HasRoom, htext]
    rfl
  have hfirst : (Sink.fresh chunk budget refusal interrupts flushError).HasRoom (lineBytes input) ↔
      ∀ room ∈ budget, 16 ≤ room := by
    rw [Sink.HasRoom, hline]
    rfl
  refine ⟨htext, report, outcome, hsort, hlog, hrun, ?_, ?_, ?_, ?_, ?_⟩
  · rw [hends.written_eq, Sink.fitting, htext]
    rfl
  · intro h
    exact ⟨hends.failure_of_room (hroom.mpr h), hends.flushes_of_room (hroom.mpr h)⟩
  · intro room hbudget hshort
    have hnot := mt hroom.mp fun h => absurd (h room hbudget) (Nat.not_le.mpr hshort)
    refine ⟨hends.flushes_of_short hnot, refusal.reason, hends.failure_of_short hnot,
      hs.reason_final, ?_, ?_⟩
    · rintro e rfl
      rfl
    · rintro rfl
      rfl
  · intro h
    rw [hends.log_eq, if_pos (hfirst.mpr h)]
    rfl
  · intro room hbudget hshort
    have hnot := mt hfirst.mp fun h => absurd (h room hbudget) (Nat.not_le.mpr hshort)
    rw [hends.log_eq, if_neg hnot]

/-- Three bytes a call and interruptions: room for twenty bytes and a broken pipe, room for fifteen and
no reason given, and room enough with a flush that fails. -/
theorem output_follows_budget_three :
    (Allocator.machine 8 = .ok () ∧ (∀ bound ∈ some 3, 1 ≤ bound) ∧
        (IoError.ofKind .brokenPipe).kind ≠ .interrupted) ∧
      (∃ outcome, run .machine (.fresh (some 3) (some 20) (.error (.ofKind .brokenPipe)) true none) =
          .ok outcome ∧
        outcome.sink.written = Text.bytes "8 4 2 1 7 6 5 4\n1 2 ".toList ∧
          outcome.failure = some (.output (.ofKind .brokenPipe)) ∧ outcome.log.length = 5) ∧
      (∃ outcome, run .machine (.fresh (some 3) (some 15) .silent true none) = .ok outcome ∧
        outcome.sink.written = Text.bytes "8 4 2 1 7 6 5 4".toList ∧ outcome.log = []) ∧
      ∃ outcome, run .machine (.fresh (some 3) none .silent true (some .deviceFull)) = .ok outcome ∧
        outcome.sink.written = text ∧ outcome.failure = some (.output .deviceFull) ∧
          outcome.sink.flushes = 1 := by
  have hgrant : Allocator.machine 8 = .ok () := by decide
  have hchunk : ∀ bound ∈ some 3, 1 ≤ bound := by decide
  have hkind : (IoError.ofKind .brokenPipe).kind ≠ .interrupted := by decide
  obtain ⟨-, report, outcome, -, hlog, hrun, hwritten, -, hshort, hlogged, -⟩ :=
    output_follows_budget .machine (some 3) (some 20) (.error (.ofKind .brokenPipe)) true none hgrant
      hchunk (fun _ h => by cases h; exact hkind)
  obtain ⟨-, -, outcome', -, -, hrun', hwritten', -, -, -, hsilent⟩ :=
    output_follows_budget .machine (some 3) (some 15) .silent true none hgrant hchunk nofun
  obtain ⟨-, -, outcome'', -, -, hrun'', hwritten'', hroom, -⟩ :=
    output_follows_budget .machine (some 3) none .silent true (some .deviceFull) hgrant hchunk nofun
  obtain ⟨-, e, hfailure, -, he, -⟩ := hshort 20 rfl (by decide)
  obtain ⟨hflush, hflushes⟩ := hroom (by simp)
  refine ⟨⟨hgrant, hchunk, hkind⟩, ⟨outcome, hrun, hwritten.trans (by decide), ?_, ?_⟩,
    ⟨outcome', hrun', hwritten'.trans (by decide), hsilent 15 rfl (by decide)⟩, outcome'', hrun'',
    hwritten''.trans (by decide), hflush, hflushes⟩
  · rw [hfailure, he _ rfl]
  · rw [hlogged (by decide), hlog]
    rfl

end Demo

end RunMerge
