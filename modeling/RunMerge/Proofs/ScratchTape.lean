import RunMerge.Proofs.ScratchHistory

/-!
# A scratch is the beginning of a tape of zeros

Think of an infinite tape that holds zeros at first. Whoever borrows `len` slots of a scratch gets the
first `len` cells of the tape, and what is written into them is written on the tape. The scratch keeps
just so much of the tape as somebody has asked for and got. Growth is not seen on the tape, for a cell
that nobody has got yet is still a zero; and a request that is refused is not seen at all.
-/

namespace RunMerge

section Definitions

variable {α : Type}

/-- A use of a scratch: how many slots are asked for, and what is made of them once they are there. A
borrower may write what it likes, in view of what the slots hold, but cannot change their number. -/
structure Loan (α : Type) where
  len : Nat
  write : Array α → Array α
  size_write : ∀ slots, (write slots).size = slots.size

abbrev Loan.Reply (α : Type) := Except SortError (Array α)

namespace Tape

def front (tape : Nat → α) (len : Nat) : Array α := Array.ofFn fun i : Fin len => tape i

def overwrite (tape : Nat → α) (cells : Array α) (i : Nat) : α := cells.getD i (tape i)

/-- The tape after loans that were replied to in this way. Only a borrower who got slots has written
anything. -/
def received (tape : Nat → α) : List (Loan α × Loan.Reply α) → Nat → α
  | [] => tape
  | (loan, .ok slots) :: rest => received (overwrite tape (loan.write slots)) rest
  | (_, .error _) :: rest => received tape rest

def granted : List (Loan α × Loan.Reply α) → List Nat
  | [] => []
  | (loan, .ok _) :: rest => loan.len :: granted rest
  | (_, .error _) :: rest => granted rest

end Tape

variable [Inhabited α]

namespace Scratch

/-- One loan, and the scratch after it. The reason of a refusal names the length. -/
def serve (grant : Allocator) (s : Scratch α) (loan : Loan α) :
    Checked (Loan.Reply α × Scratch α) := do
  match ← s.lend grant loan.len loan.write with
  | .error cause => pure (.error (.allocationFailed loan.len cause), s)
  | .ok (slots, t) => pure (.ok slots, t)

def serveAll (grant : Allocator) (s : Scratch α) :
    List (Loan α) → Checked (List (Loan.Reply α) × Scratch α)
  | [] => pure ([], s)
  | loan :: rest => do
    let (reply, s) ← s.serve grant loan
    let (replies, s) ← s.serveAll grant rest
    pure (reply :: replies, s)

structure Shows (s : Scratch α) (tape : Nat → α) (len : Nat) : Prop where
  size_eq : s.size = len
  cell_eq : ∀ i, s.slots.getD i default = tape i

/-- A loan from a scratch that shows a tape. It is refused only if the scratch is too short and no
memory is to be had, and then leaves everything as it was. Otherwise it hands out the first cells of
the tape, among them those that the scratch had before, as they were. -/
structure LendsFrom (grant : Allocator) (s : Scratch α) (tape : Nat → α) (loan : Loan α)
    (reply : Loan.Reply α) (s' : Scratch α) : Prop where
  refused_iff : (∃ reason, reply = .error reason) ↔
    s.size < loan.len ∧ ∃ cause, grant loan.len = .error cause
  reason_eq : ∀ reason, reply = .error reason →
    ∃ cause, grant loan.len = .error cause ∧ reason = .allocationFailed loan.len cause
  kept_of_refused : ∀ reason, reply = .error reason → s' = s
  slots_eq : ∀ slots, reply = .ok slots → slots = Tape.front tape loan.len
  slots_kept : ∀ slots, reply = .ok slots → ∀ i < s.size, i < slots.size → slots[i]? = s.slots[i]?
  size_le : s.size ≤ s'.size

end Scratch

end Definitions

variable {α : Type}

namespace Tape

theorem received_append (tape : Nat → α) (h : List (Loan α × Loan.Reply α)) (loan : Loan α)
    (reply : Loan.Reply α) :
    received tape (h ++ [(loan, reply)]) = received (received tape h) [(loan, reply)] := by
  induction h generalizing tape with
  | nil => rfl
  | cons entry rest ih =>
    obtain ⟨_, _ | _⟩ := entry
    · exact ih tape
    · exact ih _

theorem granted_append (h : List (Loan α × Loan.Reply α)) (loan : Loan α) (reply : Loan.Reply α) :
    granted (h ++ [(loan, reply)]) = granted h ++ granted [(loan, reply)] := by
  induction h with
  | nil => rfl
  | cons entry rest ih =>
    obtain ⟨_, _ | _⟩ := entry
    · exact ih
    · exact congrArg (_ :: ·) ih

end Tape

variable [Inhabited α]

namespace Scratch

variable {grant : Allocator} {s s' : Scratch α} {loan : Loan α} {reply : Loan.Reply α}
variable {tape : Nat → α} {len : Nat}

theorem lend_refused {cause : AllocError} {use : Array α → Array α} (h : s.size < len)
    (hgrant : grant len = .error cause) : s.lend grant len use = .ok (.error cause) := by
  rw [lend, ensure_refused h hgrant]
  rfl

theorem lend_granted {use : Array α → Array α} (hgrant : s.size < len → grant len = .ok ()) :
    s.lend grant len use =
      .ok (.ok (s.borrowed len, (s.grownTo len).restore (use (s.borrowed len)))) := by
  have hsize : len ≤ (s.grownTo len).size := by
    rw [size_grownTo]
    omega
  rw [lend, ensure_granted hgrant, Checked.ok_bind]
  simp only [first_of_le hsize]
  rfl

/-- Growing changes no slot that was there. -/
theorem getElem?_borrowed_of_lt {i : Nat} (hi : i < s.size) (hlen : i < len) :
    (s.borrowed len)[i]? = s.slots[i]? := by
  have hgrown : (s.grownTo len).slots.size = max s.size len := s.size_grownTo len
  rw [borrowed, Array.getElem?_extract, if_pos (by omega), Nat.zero_add, grownTo,
    Array.getElem?_append_left hi]

inductive Served (grant : Allocator) (s : Scratch α) (loan : Loan α) :
    Loan.Reply α → Scratch α → Prop where
  | refused {cause : AllocError} (hshort : s.size < loan.len)
    (hgrant : grant loan.len = .error cause) :
    Served grant s loan (.error (.allocationFailed loan.len cause)) s
  | lent (hgrant : s.size < loan.len → grant loan.len = .ok ()) :
    Served grant s loan (.ok (s.borrowed loan.len))
      (s.receive (loan.write (s.borrowed loan.len)))

theorem serve_served (grant : Allocator) (s : Scratch α) (loan : Loan α) :
    ∃ reply s', s.serve grant loan = .ok (reply, s') ∧ Served grant s loan reply s' := by
  rcases s.refused_or_granted grant loan.len with ⟨hshort, cause, hgrant⟩ | hgrant
  · refine ⟨_, _, ?_, .refused hshort hgrant⟩
    rw [serve, lend_refused hshort hgrant]
    rfl
  · refine ⟨_, _, ?_, .lent hgrant⟩
    rw [serve, lend_granted hgrant, receive, loan.size_write, size_borrowed]
    rfl

/-- Slots that are handed out are the first cells of the tape, whether the scratch had to grow for them
or not. -/
theorem Shows.borrowed_eq (h : s.Shows tape len) (n : Nat) : s.borrowed n = Tape.front tape n := by
  apply Array.ext
  · rw [size_borrowed, Tape.front, Array.size_ofFn]
  · intro i hi _
    rw [size_borrowed] at hi
    have hgrown : i < (s.grownTo n).slots.size := by
      have hsize : (s.grownTo n).slots.size = max s.size n := s.size_grownTo n
      omega
    have hcell := h.cell_eq i
    rw [← getD_grownTo s n, Array.getD_eq_getD_getElem?, Array.getElem?_eq_getElem hgrown,
      Option.getD_some] at hcell
    simp only [borrowed, Array.getElem_extract, Nat.zero_add, Tape.front, Array.getElem_ofFn, hcell]

/-- The step: a loan does to the tape what it does to the scratch. -/
theorem Served.shows (hserved : Served grant s loan reply s') (h : s.Shows tape len) :
    s'.Shows (Tape.received tape [(loan, reply)]) ((Tape.granted [(loan, reply)]).foldl max len) := by
  cases hserved with
  | refused hshort hgrant => exact h
  | lent hgrant =>
    constructor
    · rw [size_receive, loan.size_write, size_borrowed, h.size_eq]
      rfl
    · intro i
      rw [getD_receive, h.cell_eq i]
      simp only [Tape.received, Tape.overwrite, Array.getD_eq_getD_getElem?]
      split
      · next hi => rw [Array.getElem?_eq_getElem hi, Option.getD_some, Option.getD_some]
      · next hi => rw [Array.getElem?_eq_none (Nat.not_lt.mp hi), Option.getD_none]

theorem Served.lendsFrom (hserved : Served grant s loan reply s') (h : s.Shows tape len) :
    s.LendsFrom grant tape loan reply s' := by
  cases hserved with
  | @refused cause hshort hgrant =>
    constructor
    case refused_iff => simp [hshort, hgrant]
    case reason_eq =>
      rintro _ ⟨⟩
      exact ⟨cause, hgrant, rfl⟩
    case size_le => exact Nat.le_refl _
    all_goals simp
  | lent hgrant =>
    constructor
    case refused_iff =>
      constructor
      · rintro ⟨_, ⟨⟩⟩
      · rintro ⟨hshort, cause, hrefused⟩
        rw [hgrant hshort] at hrefused
        cases hrefused
    case slots_eq =>
      rintro _ ⟨⟩
      exact h.borrowed_eq loan.len
    case slots_kept =>
      rintro _ ⟨⟩ i hi hlent
      rw [size_borrowed] at hlent
      exact getElem?_borrowed_of_lt hi hlent
    case size_le =>
      rw [size_receive]
      exact Nat.le_max_left _ _
    all_goals simp

theorem serveAll_cons_eq_ok_iff {loans : List (Loan α)} {replies : List (Loan.Reply α)} :
    s.serveAll grant (loan :: loans) = .ok (replies, s') ↔
      ∃ reply t rest, s.serve grant loan = .ok (reply, t) ∧
        t.serveAll grant loans = .ok (rest, s') ∧ reply :: rest = replies := by
  simp [serveAll, Checked.bind_eq_ok_iff]

/-- The run: loans do to the tape what they do to the scratch. -/
theorem serveAll_shows (grant : Allocator) (loans : List (Loan α)) (h : s.Shows tape len) :
    ∃ replies s', s.serveAll grant loans = .ok (replies, s') ∧ replies.length = loans.length ∧
      s'.Shows (Tape.received tape (loans.zip replies))
        ((Tape.granted (loans.zip replies)).foldl max len) := by
  induction loans generalizing s tape len with
  | nil => exact ⟨[], s, rfl, rfl, h⟩
  | cons loan loans ih =>
    obtain ⟨reply, t, hserve, hserved⟩ := serve_served grant s loan
    obtain ⟨replies, s', hrest, hlength, hshows⟩ := ih (hserved.shows h)
    refine ⟨reply :: replies, s', ?_, congrArg (· + 1) hlength, ?_⟩
    · exact serveAll_cons_eq_ok_iff.mpr ⟨reply, t, replies, hserve, hrest, rfl⟩
    · cases reply <;> exact hshows

/-- One more loan goes on where the loans before it have ended. -/
theorem serveAll_append {t : Scratch α} {loans : List (Loan α)} {replies : List (Loan.Reply α)}
    (hall : s.serveAll grant loans = .ok (replies, t)) (hserve : t.serve grant loan = .ok (reply, s')) :
    s.serveAll grant (loans ++ [loan]) = .ok (replies ++ [reply], s') := by
  induction loans generalizing s replies with
  | nil =>
    cases hall
    exact serveAll_cons_eq_ok_iff.mpr ⟨reply, s', [], hserve, rfl, rfl⟩
  | cons first loans ih =>
    obtain ⟨reply', u, rest, hfirst, hrest, rfl⟩ := serveAll_cons_eq_ok_iff.mp hall
    exact serveAll_cons_eq_ok_iff.mpr ⟨reply', u, rest ++ [reply], hfirst, ih hrest, rfl⟩

theorem empty_shows : (empty : Scratch α).Shows (fun _ => default) 0 where
  size_eq := rfl
  cell_eq _ := rfl

end Scratch

/-- However many loans a new scratch has served, it is the beginning of a tape of zeros that has received
all that was written into the slots it lent. It is as long as the longest loan that was granted, and the
next loan is served from that tape. -/
theorem scratch_is_zero_tape (grant : Allocator) (loans : List (Loan Int32)) (loan : Loan Int32) :
    ∃ replies s reply s',
      Scratch.empty.serveAll grant loans = .ok (replies, s) ∧ replies.length = loans.length ∧
        s.serve grant loan = .ok (reply, s') ∧
        Scratch.empty.serveAll grant (loans ++ [loan]) = .ok (replies ++ [reply], s') ∧
        s.Shows (Tape.received (fun _ => 0) (loans.zip replies))
          ((Tape.granted (loans.zip replies)).foldl max 0) ∧
        s.LendsFrom grant (Tape.received (fun _ => 0) (loans.zip replies)) loan reply s' ∧
        s'.Shows (Tape.received (fun _ => 0) (loans.zip replies ++ [(loan, reply)]))
          ((Tape.granted (loans.zip replies ++ [(loan, reply)])).foldl max 0) := by
  have hempty : (Scratch.empty : Scratch Int32).Shows (fun _ => 0) 0 := Scratch.empty_shows
  obtain ⟨replies, s, hall, hlength, hshows⟩ := Scratch.serveAll_shows grant loans hempty
  obtain ⟨reply, s', hserve, hserved⟩ := Scratch.serve_served grant s loan
  refine ⟨replies, s, reply, s', hall, hlength, hserve, Scratch.serveAll_append hall hserve, hshows,
    hserved.lendsFrom hshows, ?_⟩
  rw [Tape.received_append, Tape.granted_append, List.foldl_append]
  exact hserved.shows hshows

end RunMerge
