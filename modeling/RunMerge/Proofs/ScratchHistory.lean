import Mathlib.Data.List.Induction
import RunMerge.Proofs.Endings

/-!
# What a scratch holds is its history

A scratch is as long as the longest array that was sorted with it, or as long as it was made, and
each slot holds what the last sort that reached so far has left there. Nothing else leaves a trace:
no refused or idle sort, and nothing that is done to another scratch, be it the one that this one
was cloned from. The history of a scratch is read off the commands and their answers.

A command makes a scratch, is refused one, or sorts with one. `Pool.Effect` says of each of these
what the pool holds afterwards and what the answer tells; runs of commands are reasoned about
through it alone. A run is never a fault as long as every command names a scratch that has been
made, which can be told by counting.
-/

namespace RunMerge

section Commands

variable {α : Type}

namespace Command

def operand? : Command α → Option Nat
  | create => none
  | createWith _ => none
  | clone source => some source
  | sort index _ _ => some index

def Known (count : Nat) (command : Command α) : Prop := ∀ i ∈ command.operand?, i < count

def InMemory : Command α → Prop
  | sort _ _ data => data.size < Word.largest
  | _ => True

/-- How many scratches a command makes. One of no slots needs no memory. -/
def makes (grant : Allocator) : Command α → Nat
  | create => 1
  | createWith len => if len = 0 ∨ grant len = .ok () then 1 else 0
  | clone _ => 1
  | sort _ _ _ => 0

/-- The slots of the scratch that a command makes in a pool, if it is granted. -/
def initial? [Inhabited α] (p : Pool α) : Command α → Option (Array α)
  | create => some #[]
  | createWith len => some (Array.replicate len default)
  | clone source => p.scratches[source]?.map Scratch.slots
  | sort _ _ _ => none

end Command

/-- Each command names a scratch that is there when its turn comes, if there are `count` at the
start. -/
def Runnable (grant : Allocator) : Nat → List (Command α) → Prop
  | _, [] => True
  | count, command :: rest =>
    command.Known count ∧ Runnable grant (count + command.makes grant) rest

variable [LE α] [DecidableLE α] [Inhabited α]

namespace Pool

inductive Effect (grant : Allocator) (p : Pool α) : Command α → Pool α → Answer α → Prop where
  | made {command : Command α} {scratch : Scratch α}
    (hinitial : command.initial? p = some scratch.slots) :
    Effect grant p command ⟨p.scratches.push scratch⟩ (.made p.scratches.size scratch)
  | refused {len : Nat} {cause : AllocError} (hgrant : grant len = .error cause) :
    Effect grant p (.createWith len) p (.refused (.allocationFailed len cause))
  | sorted {index : Nat} {strategy : Strategy} {data : Array α} {r : Report α}
    (hindex : index < p.scratches.size) (hend : Ending grant strategy data p.scratches[index] r) :
    Effect grant p (.sort index strategy data) ⟨p.scratches.set index r.scratch⟩ (.sorted index r)

variable {grant : Allocator} {p p' final : Pool α} {command : Command α} {answer : Answer α}
variable {rest : List (Command α)} {answers : List (Answer α)}

theorem known_of_step (h : p.step grant command = .ok (p', answer)) :
    command.Known p.scratches.size := by
  cases command with
  | create => simp [Command.Known, Command.operand?]
  | createWith len => simp [Command.Known, Command.operand?]
  | clone source =>
    obtain ⟨s, hs, -⟩ := Checked.bind_eq_ok_iff.mp h
    obtain ⟨hsource, -⟩ := Slots.fetch_eq_ok_iff.mp hs
    simpa [Command.Known, Command.operand?] using hsource
  | sort index strategy data =>
    obtain ⟨s, hs, -⟩ := Checked.bind_eq_ok_iff.mp h
    obtain ⟨hindex, -⟩ := Slots.fetch_eq_ok_iff.mp hs
    simpa [Command.Known, Command.operand?] using hindex

/-- A command that names a scratch of the pool is carried out. -/
theorem step_of_known (grant : Allocator) (hknown : command.Known p.scratches.size)
    (hmem : command.InMemory) :
    ∃ p' answer, p.step grant command = .ok (p', answer) ∧ p.Effect grant command p' answer ∧
      p'.scratches.size = p.scratches.size + command.makes grant := by
  cases command with
  | create => exact ⟨_, _, rfl, .made rfl, Array.size_push _⟩
  | createWith len =>
    rcases (Scratch.empty : Scratch α).refused_or_granted grant len with
      ⟨hlen, cause, hgrant⟩ | hgrant
    · have hstep : p.step grant (.createWith len) =
          .ok (p, .refused (.allocationFailed len cause)) := by
        simp [step, Scratch.ensure_refused hlen hgrant]
      have hpos : len ≠ 0 := Nat.ne_of_gt hlen
      exact ⟨_, _, hstep, .refused hgrant, by simp [Command.makes, hpos, hgrant]⟩
    · have hstep : p.step grant (.createWith len) =
          .ok (p.add ((Scratch.empty : Scratch α).grownTo len)) := by
        simp [step, Scratch.ensure_granted hgrant]
      have hslots : (Command.createWith len).initial? p =
          some ((Scratch.empty : Scratch α).grownTo len).slots := by
        simp [Command.initial?, Scratch.grownTo, Scratch.empty, Scratch.size]
      have hmade : len = 0 ∨ grant len = .ok () := by
        rcases Nat.eq_zero_or_pos len with hzero | hpos
        · exact .inl hzero
        · exact .inr (hgrant hpos)
      exact ⟨_, _, hstep, .made hslots, by simp [Command.makes, hmade]⟩
  | clone source =>
    have hsource : source < p.scratches.size := hknown source rfl
    have hstep : p.step grant (.clone source) = .ok (p.add p.scratches[source]) := by
      simp [step, hsource]
    exact ⟨_, _, hstep, .made (by simp [Command.initial?, hsource]), Array.size_push _⟩
  | sort index strategy data =>
    have hindex : index < p.scratches.size := hknown index rfl
    obtain ⟨r, hr, hend⟩ := sortWith_ending grant strategy p.scratches[index] hmem
    have hstep : p.step grant (.sort index strategy data) =
        .ok (⟨p.scratches.set index r.scratch⟩, .sorted index r) := by
      simp [step, hindex, hr]
    exact ⟨_, _, hstep, .sorted hindex hend, Array.size_set hindex⟩

theorem effect_of_step (hmem : command.InMemory) (h : p.step grant command = .ok (p', answer)) :
    p.Effect grant command p' answer := by
  obtain ⟨q, answer', hstep, heffect, -⟩ := step_of_known grant (known_of_step h) hmem
  rw [h] at hstep
  cases hstep
  exact heffect

theorem run_cons_eq_ok_iff : p.run grant (command :: rest) = .ok (final, answers) ↔
    ∃ p' answer answers', p.step grant command = .ok (p', answer) ∧
      p'.run grant rest = .ok (final, answers') ∧ answer :: answers' = answers := by
  simp [run, Checked.bind_eq_ok_iff]

/-- A run of commands that each name a scratch of the pool comes to its end. -/
theorem run_of_runnable {commands : List (Command α)}
    (hrun : Runnable grant p.scratches.size commands)
    (hmem : ∀ command ∈ commands, command.InMemory) :
    ∃ final answers, p.run grant commands = .ok (final, answers) := by
  induction commands generalizing p with
  | nil => exact ⟨p, [], rfl⟩
  | cons command rest ih =>
    obtain ⟨hknown, hrest⟩ := hrun
    obtain ⟨p', answer, hstep, -, hsize⟩ :=
      step_of_known grant hknown (hmem command List.mem_cons_self)
    rw [← hsize] at hrest
    obtain ⟨final, answers, hok⟩ := ih hrest fun c hc => hmem c (List.mem_cons_of_mem _ hc)
    exact ⟨final, answer :: answers, run_cons_eq_ok_iff.mpr ⟨p', answer, answers, hstep, hok, rfl⟩⟩

end Pool

end Commands

section Histories

section Definitions

variable {α : Type}

/-- The trace of a sort: how many elements it had, and what it has left in the slots for them. -/
structure Leftover (α : Type) where
  len : Nat
  slots : Array α

structure Past (α : Type) where
  initial : Array α
  leftovers : List (Leftover α)

namespace Past

def size (h : Past α) : Nat := (h.leftovers.map Leftover.len).foldl max h.initial.size

/-- What the latest sort of more than `i` elements has left in slot `i`, or else what was there at
the start. A slot that was not there at the start held the default element. -/
def slot [Inhabited α] (h : Past α) (i : Nat) : α :=
  (((h.leftovers.filter fun l => i < l.len).getLast?.map Leftover.slots).getD h.initial).getD i
    default

end Past

/-- A scratch is as long as its history says and holds in each slot what it says. No sort was given
fewer slots than it had elements. -/
structure Scratch.Follows [Inhabited α] (s : Scratch α) (h : Past α) : Prop where
  size_eq : s.size = h.size
  slot_eq : ∀ i, (hi : i < s.slots.size) → s.slots[i] = h.slot i
  size_slots_eq : ∀ l ∈ h.leftovers, l.slots.size = l.len

variable [LE α] [DecidableLE α]

/-- A sort that needs a second array: two elements or more, of a length that the strategy takes,
and for the bottom-up strategy not in order already. -/
def Strategy.Borrows (strategy : Strategy) (data : Array α) : Prop :=
  2 ≤ data.size ∧ strategy.supports data.size = true ∧
    (strategy = .bottomUp → isSorted data = false)

instance (strategy : Strategy) (data : Array α) : Decidable (strategy.Borrows data) :=
  inferInstanceAs (Decidable (_ ∧ _ ∧ _))

/-- The trace of a successful sort that borrowed slots: the length of the array, and the front of the
scratch that the report shows. -/
def Report.leftover? (strategy : Strategy) (data : Array α) (r : Report α) : Option (Leftover α) :=
  if r.failure = none ∧ strategy.Borrows data then
    some ⟨data.size, r.scratch.slots.extract 0 data.size⟩
  else none

/-- What a command has left in scratch `c`, as its answer tells. Only a sort with `c` itself can
have left anything. -/
def leftover? (c : Nat) : Command α × Answer α → Option (Leftover α)
  | (.sort index strategy data, .sorted _ r) =>
    if index = c then r.leftover? strategy data else none
  | _ => none

/-- Where scratch `c` comes from in a run: the command that made it, with the commands and answers
before and after it and the pool that it was made in. -/
structure Pool.Origin [Inhabited α] (grant : Allocator) (p : Pool α) (commands : List (Command α))
    (answers : List (Answer α)) (c : Nat) where
  before : List (Command α)
  maker : Command α
  after : List (Command α)
  earlier : List (Answer α)
  made : Scratch α
  later : List (Answer α)
  mid : Pool α
  commands_eq : commands = before ++ maker :: after
  answers_eq : answers = earlier ++ .made c made :: later
  run_before : p.run grant before = .ok (mid, earlier)
  initial_eq : maker.initial? mid = some made.slots

def Pool.Origin.past [Inhabited α] {grant : Allocator} {p : Pool α} {commands : List (Command α)}
    {answers : List (Answer α)} {c : Nat} (o : p.Origin grant commands answers c) : Past α where
  initial := o.made.slots
  leftovers := (o.after.zip o.later).filterMap (leftover? c)

end Definitions

variable {α : Type} [Inhabited α]

namespace Scratch

def receive (s : Scratch α) (part : Array α) : Scratch α := (s.grownTo part.size).restore part

theorem size_receive (s : Scratch α) (part : Array α) :
    (s.receive part).size = max s.size part.size := by
  have hgrown := s.size_grownTo part.size
  simp only [size] at hgrown
  simp only [receive, restore, size, Array.size_append, Array.size_extract, hgrown]
  omega

theorem getD_receive (s : Scratch α) (part : Array α) (i : Nat) :
    (s.receive part).slots.getD i default =
      if i < part.size then part.getD i default else s.slots.getD i default := by
  rw [receive, getD_restore, getD_grownTo]

def receiveAll (s : Scratch α) (leftovers : List (Leftover α)) : Scratch α :=
  leftovers.foldl (fun s l => s.receive l.slots) s

variable {leftovers : List (Leftover α)}

theorem size_receiveAll (s : Scratch α) (hfull : ∀ l ∈ leftovers, l.slots.size = l.len) :
    (s.receiveAll leftovers).size = (Past.mk s.slots leftovers).size := by
  induction leftovers generalizing s with
  | nil => rfl
  | cons l rest ih =>
    have hmax : (s.receive l.slots).slots.size = max s.slots.size l.len :=
      (s.size_receive l.slots).trans (congrArg (max s.size) (hfull l List.mem_cons_self))
    have hrest := ih (s.receive l.slots) fun m hm => hfull m (List.mem_cons_of_mem l hm)
    simpa [receiveAll, Past.size, hmax] using hrest

/-- The induction takes the sorts from the end, for it is the last one that counts. -/
theorem getD_receiveAll (s : Scratch α) (hfull : ∀ l ∈ leftovers, l.slots.size = l.len) (i : Nat) :
    (s.receiveAll leftovers).slots.getD i default = (Past.mk s.slots leftovers).slot i := by
  induction leftovers using List.reverseRecOn with
  | nil => rfl
  | append_singleton leftovers l ih =>
    have hlast : l.slots.size = l.len := hfull l (by simp)
    have hbefore := ih fun m hm => hfull m (List.mem_append_left [l] hm)
    have hstep : s.receiveAll (leftovers ++ [l]) = (s.receiveAll leftovers).receive l.slots := by
      simp [receiveAll]
    rw [hstep, getD_receive, hbefore, hlast]
    by_cases hi : i < l.len
    · simp [Past.slot, List.filter_append, hi]
    · simp [Past.slot, List.filter_append, hi]

/-- Sorts that leave one trace after the other make the history of a scratch. -/
theorem follows_receiveAll (s : Scratch α) (hfull : ∀ l ∈ leftovers, l.slots.size = l.len) :
    (s.receiveAll leftovers).Follows ⟨s.slots, leftovers⟩ where
  size_eq := s.size_receiveAll hfull
  slot_eq i hi := by
    rw [← s.getD_receiveAll hfull, Array.getD_eq_getD_getElem?, Array.getElem?_eq_getElem hi,
      Option.getD_some]
  size_slots_eq := hfull

end Scratch

variable [LE α] [DecidableLE α]
variable {grant : Allocator} {strategy : Strategy} {data : Array α} {s : Scratch α} {r : Report α}

omit [Inhabited α] in
theorem borrows_iff : strategy.Borrows data ↔
    strategy.supports data.size = true ∧ strategy.idleOn data = false := by
  rw [idleOn_eq_false_iff, Strategy.Borrows, and_left_comm]

/-- A sort that has run shows its whole buffer as its trace. -/
theorem Report.leftover?_restore {done : Workspace α} {log : List Event}
    (hlen : strategy.supports data.size = true) (hidle : strategy.idleOn data = false)
    (hbuffer : done.buffer.size = data.size) :
    (Report.mk done.data ((s.grownTo data.size).restore done.buffer) log none).leftover? strategy data =
      some ⟨data.size, done.buffer⟩ := by
  have hfront := (s.grownTo data.size).extract_restore done.buffer
  rw [hbuffer] at hfront
  simp [Report.leftover?, borrows_iff, hlen, hidle, hfront]

/-- A sort that borrows from a scratch leaves its trace there, in as many slots as it has elements, and
every other one leaves the scratch as it was. -/
theorem Ending.scratch_eq (h : Ending grant strategy data s r) :
    r.scratch = (r.leftover? strategy data).elim s (fun l => s.receive l.slots) ∧
      ∀ l ∈ r.leftover? strategy data, l.slots.size = l.len := by
  cases h with
  | unsupported hlen => simp [Report.leftover?]
  | idle hlen hidle => simp [Report.leftover?, borrows_iff, hidle]
  | refused hlen hidle hshort hgrant => simp [Report.leftover?]
  | sorted hlen hidle hgrant hbuffer hrun =>
    rw [Report.leftover?_restore hlen hidle hbuffer]
    simp [Scratch.receive, hbuffer]

namespace Pool

variable {p p' final : Pool α} {command : Command α} {answer : Answer α} {c : Nat}
variable {commands : List (Command α)} {answers : List (Answer α)}

/-- The step: what a command does to a scratch that is there already. -/
theorem Effect.scratch_at (h : p.Effect grant command p' answer)
    (hs : p.scratches[c]? = some s) :
    p'.scratches[c]? = some ((leftover? c (command, answer)).elim s fun l => s.receive l.slots) ∧
      ∀ l ∈ leftover? c (command, answer), l.slots.size = l.len := by
  obtain ⟨hc, hsc⟩ := Array.getElem?_eq_some_iff.mp hs
  cases h with
  | @made command scratch hinitial =>
    -- a new scratch stands behind all others, so no number changes its meaning
    have hnone : leftover? c (command, .made p.scratches.size scratch) = none := by
      cases command <;> rfl
    rw [hnone, Array.getElem?_push_lt hc, hsc]
    exact ⟨rfl, by simp⟩
  | refused hgrant => exact ⟨hs, by simp [leftover?]⟩
  | @sorted index strategy data r hindex hend =>
    by_cases hic : index = c
    · subst hic
      obtain ⟨hscratch, hfull⟩ := hend.scratch_eq
      rw [Array.getElem?_set_self, hscratch, hsc]
      simpa [leftover?] using hfull
    · rw [Array.getElem?_set_ne hindex hic, hs]
      simp [leftover?, hic]

/-- The run: what commands do to a scratch that is there already. -/
theorem run_scratch_at (hmem : ∀ command ∈ commands, command.InMemory)
    (hrun : p.run grant commands = .ok (final, answers)) (hs : p.scratches[c]? = some s) :
    final.scratches[c]? = some (s.receiveAll ((commands.zip answers).filterMap (leftover? c))) ∧
      ∀ l ∈ (commands.zip answers).filterMap (leftover? c), l.slots.size = l.len := by
  induction commands generalizing p s answers with
  | nil =>
    cases hrun
    exact ⟨hs, by simp⟩
  | cons command rest ih =>
    obtain ⟨p', answer, answers', hstep, hrest, rfl⟩ := run_cons_eq_ok_iff.mp hrun
    have heffect := effect_of_step (hmem command List.mem_cons_self) hstep
    obtain ⟨hafter, hfirst⟩ := heffect.scratch_at hs
    obtain ⟨hnext, hfull⟩ := ih (fun d hd => hmem d (List.mem_cons_of_mem _ hd)) hrest hafter
    rw [hnext, List.zip_cons_cons, List.filterMap_cons]
    cases hleft : leftover? c (command, answer) with
    | none => exact ⟨rfl, hfull⟩
    | some l => exact ⟨rfl, List.forall_mem_cons.mpr ⟨hfirst l hleft, hfull⟩⟩

/-- A scratch that is new after a command is the one that the command made. -/
theorem Effect.made_of_new (h : p.Effect grant command p' answer) (hnew : p.scratches.size ≤ c)
    (hc : c < p'.scratches.size) :
    ∃ s, answer = .made c s ∧ command.initial? p = some s.slots ∧ p'.scratches[c]? = some s := by
  cases h with
  | @made command s hinitial =>
    rw [Array.size_push] at hc
    have hlast : c = p.scratches.size := by omega
    subst hlast
    exact ⟨s, rfl, hinitial, Array.getElem?_push_size⟩
  | refused hgrant => omega
  | sorted hindex hend =>
    rw [Array.size_set] at hc
    omega

/-- One more command in front of a run keeps where a scratch comes from. -/
def Origin.cons {rest : List (Command α)} (o : p'.Origin grant rest answers c)
    (hstep : p.step grant command = .ok (p', answer)) :
    p.Origin grant (command :: rest) (answer :: answers) c where
  before := command :: o.before
  maker := o.maker
  after := o.after
  earlier := answer :: o.earlier
  made := o.made
  later := o.later
  mid := o.mid
  commands_eq := congrArg (command :: ·) o.commands_eq
  answers_eq := congrArg (answer :: ·) o.answers_eq
  run_before := run_cons_eq_ok_iff.mpr ⟨p', answer, o.earlier, hstep, o.run_before, rfl⟩
  initial_eq := o.initial_eq

/-- A scratch that a run made holds what its history says. The induction is on the commands up to
the one that made it. -/
theorem run_follows_past (hmem : ∀ command ∈ commands, command.InMemory)
    (hrun : p.run grant commands = .ok (final, answers)) (hnew : p.scratches.size ≤ c)
    (hc : c < final.scratches.size) :
    ∃ s, final.scratches[c]? = some s ∧ ∃ o : p.Origin grant commands answers c,
      s.Follows o.past := by
  induction commands generalizing p answers with
  | nil =>
    cases hrun
    omega
  | cons command rest ih =>
    have hmem' : ∀ d ∈ rest, d.InMemory := fun d hd => hmem d (List.mem_cons_of_mem _ hd)
    obtain ⟨p', answer, answers', hstep, hrest, rfl⟩ := run_cons_eq_ok_iff.mp hrun
    have heffect := effect_of_step (hmem command List.mem_cons_self) hstep
    -- if this command made the scratch, the rest of the run is its history
    rcases Nat.lt_or_ge c p'.scratches.size with hmade | hlater
    · obtain ⟨made, rfl, hinitial, hs⟩ := heffect.made_of_new hnew hmade
      obtain ⟨hlast, hfull⟩ := run_scratch_at hmem' hrest hs
      exact ⟨_, hlast, ⟨[], command, rest, [], made, answers', p, rfl, rfl, rfl, hinitial⟩,
        made.follows_receiveAll hfull⟩
    · obtain ⟨s, hs, o, hfollows⟩ := ih hmem' hrest hlater
      exact ⟨s, hs, o.cons hstep, hfollows⟩

end Pool

/-- Commands that name scratches made before them are all carried out, and then each scratch holds
what its own history says. A command that borrows nothing from a scratch leaves it as it was. -/
theorem scratch_follows_history (grant : Allocator) (commands : List (Command α))
    (hnames : Runnable grant 0 commands) (hmem : ∀ command ∈ commands, command.InMemory) :
    (∃ final answers, Pool.empty.run grant commands = .ok (final, answers) ∧
        ∀ c < final.scratches.size, ∃ s, final.scratches[c]? = some s ∧
          ∃ o : Pool.empty.Origin grant commands answers c, s.Follows o.past) ∧
      ∀ (p p' : Pool α) (command : Command α) (answer : Answer α), command.InMemory →
        p.step grant command = .ok (p', answer) → ∀ c < p.scratches.size,
          leftover? c (command, answer) = none → p'.scratches[c]? = p.scratches[c]? := by
  constructor
  · obtain ⟨final, answers, hrun⟩ := Pool.run_of_runnable (p := Pool.empty) hnames hmem
    refine ⟨final, answers, hrun, fun c hc => ?_⟩
    exact Pool.run_follows_past hmem hrun (Nat.zero_le c) hc
  · intro p p' command answer hcommand hstep c hc hnone
    have hs := Array.getElem?_eq_getElem hc
    obtain ⟨hafter, -⟩ := (Pool.effect_of_step hcommand hstep).scratch_at hs
    rw [hafter, hnone, hs]
    rfl

/-- A scratch that is cloned between two sorts, the second of which is shorter and leaves the last slot
alone, and one that an idle sort does not touch. -/
theorem scratch_follows_history_shared :
    (∃ final answers, Pool.empty.run .machine
        [.create, .sort 0 .bottomUp (#[3, 1, 2] : Array Int32), .clone 0, .sort 0 .bottomUp #[2, 1],
          .sort 1 .fixedMid #[4, 3, 2, 1], .createWith 2] = .ok (final, answers) ∧
        final.scratches = #[⟨#[1, 2, 2]⟩, ⟨#[1, 2, 3, 4]⟩, ⟨#[0, 0]⟩] ∧
        ∃ o : Pool.empty.Origin .machine
            [.create, .sort 0 .bottomUp (#[3, 1, 2] : Array Int32), .clone 0,
              .sort 0 .bottomUp #[2, 1], .sort 1 .fixedMid #[4, 3, 2, 1], .createWith 2] answers 0,
          o.past.size = 3 ∧ o.past.slot 0 = 1 ∧ o.past.slot 1 = 2 ∧ o.past.slot 2 = 2) ∧
      ∃ p' answer, (⟨#[⟨#[9]⟩, .empty]⟩ : Pool Int32).step .machine (.sort 0 .bottomUp #[1, 2]) =
        .ok (p', answer) ∧ p'.scratches[0]? = some ⟨#[9]⟩ := by
  obtain ⟨⟨final, answers, hrun, hfollows⟩, hstep⟩ := scratch_follows_history .machine
    [.create, .sort 0 .bottomUp (#[3, 1, 2] : Array Int32), .clone 0, .sort 0 .bottomUp #[2, 1],
      .sort 1 .fixedMid #[4, 3, 2, 1], .createWith 2]
    (by simp [Runnable, Command.Known, Command.operand?, Command.makes])
    (by simp [Command.InMemory]; decide)
  have hfinal : final.scratches = #[⟨#[1, 2, 2]⟩, ⟨#[1, 2, 3, 4]⟩, ⟨#[0, 0]⟩] :=
    Checked.eq_of_map (fun outcome => outcome.1.scratches) hrun (by cbv)
  obtain ⟨s, hs, o, ho⟩ := hfollows 0 (by simp [hfinal])
  have hslots : s = ⟨#[1, 2, 2]⟩ := by simpa [hfinal] using hs.symm
  subst hslots
  refine ⟨⟨final, answers, hrun, hfinal, o, ho.size_eq.symm, (ho.slot_eq 0 (by decide)).symm,
    (ho.slot_eq 1 (by decide)).symm, (ho.slot_eq 2 (by decide)).symm⟩, _, _, rfl, ?_⟩
  exact hstep ⟨#[⟨#[9]⟩, .empty]⟩ _ (.sort 0 .bottomUp #[1, 2]) _
    (show 2 < Word.largest by decide) rfl 0 (by decide) rfl

end Histories

end RunMerge
