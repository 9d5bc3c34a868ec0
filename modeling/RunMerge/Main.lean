import RunMerge.Demo
import Std.Time

/-!
# The command line

Writes the lines of the demonstration to standard output and the events that the log filter shows
to standard error, each after the time at which it was reported. Arguments are ignored. The filter
is taken from the environment.
-/

namespace RunMerge.Main

def filterVariable : String := "RUST_LOG"

def describe (e : IO.Error) : IoError :=
  match e with
  | .resourceExhausted _ 28 _ => .deviceFull
  | .resourceVanished 32 _ => .readerGone
  | e => .custom e.toString

/-- The present time in UTC. -/
def stamp : IO String := do
  let now ← Std.Time.Timestamp.now
  pure ((Std.Time.DateTime.ofTimestamp now .UTC).format "uuuu-MM-dd'T'HH:mm:ss.SSSSSS'Z'")

/-- Shows the events of a run and returns its exit code. -/
def close (transcript : Console.Transcript) : IO UInt32 := do
  for e in transcript.events do
    IO.eprintln ((← stamp) ++ " " ++ e.level.indent ++ e.consoleLine)
  pure transcript.code.toUInt32

/-- Reports a fault, which no run of the demonstration has. -/
def abort (fault : Fault) : IO UInt32 := do
  IO.eprintln (reprStr fault)
  pure 101

/-- Writes the output of a run. A run whose output the system refuses is one that writes to a sink
that refuses it for the same reason. -/
def perform (filter : Option String) : IO UInt32 := do
  match Console.run .machine filter .unbounded with
  | .error fault => abort fault
  | .ok transcript =>
    try
      let out ← IO.getStdout
      out.write ⟨transcript.output.toArray⟩
      out.flush
      close transcript
    catch e =>
      match Console.run .machine filter (.refusing (describe e)) with
      | .error fault => abort fault
      | .ok transcript => close transcript

end RunMerge.Main

def main (_args : List String) : IO UInt32 := do
  RunMerge.Main.perform (← IO.getEnv RunMerge.Main.filterVariable)
