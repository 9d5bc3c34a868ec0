/-!
# Sinks and their errors

A sink takes bytes, though not always all that it is offered: it may take a few bytes per call,
have room for a few bytes in all, and be interrupted at every other call. `writeAll` keeps offering
what is left until everything is taken or the sink refuses. An interruption is no refusal: the same
bytes are offered again.

An output error has a kind and a text. Most errors are known by their kind alone and show a fixed
text; an error may also come with a text of its own.
-/

namespace RunMerge

inductive IoKind where
  | notFound
  | permissionDenied
  | connectionRefused
  | connectionReset
  | brokenPipe
  | alreadyExists
  | wouldBlock
  | invalidInput
  | invalidData
  | timedOut
  | writeZero
  | storageFull
  | interrupted
  | unsupported
  | unexpectedEof
  | outOfMemory
  | other
  deriving DecidableEq, Repr

def IoKind.text : IoKind → String
  | notFound => "entity not found"
  | permissionDenied => "permission denied"
  | connectionRefused => "connection refused"
  | connectionReset => "connection reset"
  | brokenPipe => "broken pipe"
  | alreadyExists => "entity already exists"
  | wouldBlock => "operation would block"
  | invalidInput => "invalid input parameter"
  | invalidData => "invalid data"
  | timedOut => "timed out"
  | writeZero => "write zero"
  | storageFull => "no storage space"
  | interrupted => "operation interrupted"
  | unsupported => "unsupported"
  | unexpectedEof => "unexpected end of file"
  | outOfMemory => "out of memory"
  | other => "other error"

structure IoError where
  kind : IoKind
  text : String
  deriving DecidableEq, Repr

namespace IoError

/-- An error about which only its kind is known. -/
def ofKind (kind : IoKind) : IoError := ⟨kind, kind.text⟩

def custom (text : String) : IoError := ⟨.other, text⟩

/-- The error of a writer that takes no byte and does not say why. -/
def nothingWritten : IoError := ⟨.writeZero, "failed to write whole buffer"⟩

def deviceFull : IoError := ⟨.storageFull, "No space left on device (os error 28)"⟩

def readerGone : IoError := ⟨.brokenPipe, "Broken pipe (os error 32)"⟩

end IoError

inductive Refusal where
  | error (e : IoError)
  | silent
  deriving DecidableEq, Repr

structure Sink where
  /-- The most bytes that one call takes; no bound if absent. -/
  chunk : Option Nat
  /-- The bytes that there is still room for. -/
  budget : Option Nat
  refusal : Refusal
  /-- Every other call is interrupted. -/
  interrupts : Bool
  interruptNext : Bool
  flushError : Option IoError
  written : List UInt8
  flushes : Nat
  deriving DecidableEq, Repr

inductive WriteResult where
  | accepted (count : Nat)
  | interrupted
  | failed (e : IoError)
  deriving DecidableEq, Repr

namespace Sink

/-- A sink that has taken nothing. If it is interrupted at all, then first at its first call. -/
def fresh (chunk budget : Option Nat) (refusal : Refusal) (interrupts : Bool)
    (flushError : Option IoError) : Sink :=
  ⟨chunk, budget, refusal, interrupts, interrupts, flushError, [], 0⟩

def unbounded : Sink := fresh none none .silent false none

def refusing (e : IoError) : Sink := fresh none (some 0) (.error e) false none

/-- The smaller of a number and a bound that may be absent. -/
def cap (n : Nat) : Option Nat → Nat
  | none => n
  | some bound => min n bound

/-- Takes as many of the bytes as one call may and as there is room for. A sink of bounded room
that can take none of them refuses. -/
def write (s : Sink) (bytes : List UInt8) : WriteResult × Sink :=
  if s.interruptNext then
    (.interrupted, { s with interruptNext := false })
  else
    let count := cap (cap bytes.length s.chunk) s.budget
    let s := { s with interruptNext := s.interrupts }
    if count = 0 ∧ bytes ≠ [] ∧ s.budget.isSome then
      match s.refusal with
      | .error e => (.failed e, s)
      | .silent => (.accepted 0, s)
    else
      (.accepted count,
        { s with budget := s.budget.map (· - count), written := s.written ++ bytes.take count })

def pending (s : Sink) : Nat := if s.interruptNext then 1 else 0

theorem pending_lt_of_interrupted {s t : Sink} {bytes : List UInt8}
    (h : s.write bytes = (.interrupted, t)) : t.pending < s.pending := by
  unfold write at h
  split at h
  case isTrue interrupted =>
    cases h
    simp [pending, interrupted]
  case isFalse =>
    dsimp only at h
    split at h
    · split at h <;> cases h
    · cases h

theorem pending_le_one (s : Sink) : s.pending ≤ 1 := by
  unfold pending; split <;> omega

/-- Offers bytes until all are taken. A call that takes none of them is an error too. -/
def writeAll (s : Sink) (bytes : List UInt8) : Except IoError Unit × Sink :=
  if bytes = [] then
    (.ok (), s)
  else
    match h : s.write bytes with
    | (.interrupted, t) => writeAll t bytes
    | (.failed e, t) => (.error e, t)
    | (.accepted 0, t) => (.error .nothingWritten, t)
    | (.accepted (count + 1), t) => writeAll t (bytes.drop (count + 1))
termination_by 2 * bytes.length + s.pending
decreasing_by
  · have := pending_lt_of_interrupted h
    omega
  · have := List.length_pos_iff.mpr ‹¬bytes = []›
    have := pending_le_one t
    simp only [List.length_drop]
    omega

def flush (s : Sink) : Except IoError Unit × Sink :=
  let s := { s with flushes := s.flushes + 1 }
  match s.flushError with
  | some e => (.error e, s)
  | none => (.ok (), s)

end Sink

end RunMerge
