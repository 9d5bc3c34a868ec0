import RunMerge.LogFilter
import RunMerge.Sink
import RunMerge.Sort

/-!
# The demonstration

The demonstration shows an array, sorts it, and shows it again, each time as a line of its own. It
ends at the first failure, be it of the sink or of the sort.

On a console the demonstration writes its lines to standard output and the events that the log
filter shows to standard error. A failure is reported there as one more event, and by the exit
code.
-/

namespace RunMerge

inductive DemoError where
  | sort (e : SortError)
  | output (e : IoError)
  deriving DecidableEq, Repr

namespace DemoError

def message : DemoError → String
  | sort e => "sort failed: " ++ e.message
  | output e => "failed to write output: " ++ e.text

def causes : DemoError → List String
  | sort e => e.message :: e.causes
  | output e => [e.text]

end DemoError

namespace Demo

def input : Array Int32 := #[8, 4, 2, 1, 7, 6, 5, 4]

structure Outcome where
  sink : Sink
  log : List Event
  failure : Option DemoError
  deriving DecidableEq, Repr

/-- Writes the values as a line and then the end of the line. -/
def writeLine (sink : Sink) (values : Array Int32) : Except IoError Unit × Sink :=
  match sink.writeAll (Text.bytes (Line.chars values.toList)) with
  | (.ok (), sink) => sink.writeAll (Text.bytes ['\n'])
  | refused => refused

/-- Shows the sorted array and flushes the sink. -/
def finish (sink : Sink) (log : List Event) (sorted : Array Int32) : Outcome :=
  match writeLine sink sorted with
  | (.error e, sink) => ⟨sink, log, some (.output e)⟩
  | (.ok (), sink) =>
    match sink.flush with
    | (.error e, sink) => ⟨sink, log, some (.output e)⟩
    | (.ok (), sink) => ⟨sink, log, none⟩

def run (grant : Allocator) (sink : Sink) : Checked Outcome :=
  match writeLine sink input with
  | (.error e, sink) => pure ⟨sink, [], some (.output e)⟩
  | (.ok (), sink) => do
    let report ← mergeSort grant input
    match report.failure with
    | some e => pure ⟨sink, report.log, some (.sort e)⟩
    | none => pure (finish sink (report.log ++ [.demoSorted report.data.size]) report.data)

end Demo

namespace Console

structure Transcript where
  output : List UInt8
  events : List Event
  code : UInt8
  deriving DecidableEq, Repr

/-- Every event of a finished demonstration, its failure included. -/
def events (outcome : Demo.Outcome) : List Event :=
  match outcome.failure with
  | none => outcome.log
  | some e => outcome.log ++ [.demoFailed e.message]

def run (grant : Allocator) (filter : Option String) (sink : Sink) : Checked Transcript := do
  let outcome ← Demo.run grant sink
  let shown := (events outcome).filter (LogFilter.ofText? filter).shows
  pure ⟨outcome.sink.written, shown, if outcome.failure.isSome then 1 else 0⟩

end Console

end RunMerge
