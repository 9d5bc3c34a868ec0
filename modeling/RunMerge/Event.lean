import RunMerge.Checked
import RunMerge.Text

/-!
# Strategies and log events

Both strategies merge ever longer runs. The bottom-up strategy merges neighbouring runs and takes
every length. The fixed-mid strategy pairs runs of the two halves around a midpoint that stays
where it is, which fits only lengths of the form `2 ^ k` and `2 ^ k - 1`.

Events are what the program reports while it works. An event is data; its texts are derived from it.
There are two of them: the short line, and the console line, which also names the part of the program
that the event comes from and puts names in quotes.
-/

namespace RunMerge

inductive Strategy where
  | bottomUp
  | fixedMid
  deriving DecidableEq, Repr

namespace Strategy

def all : List Strategy := [bottomUp, fixedMid]

/-- The name under which logs and error texts mention a strategy. -/
def name : Strategy → String
  | bottomUp => "merge_sort_bottom_up"
  | fixedMid => "merge_sort_fixed_mid"

def title : Strategy → String
  | bottomUp => "MergeSortBottomUp"
  | fixedMid => "MergeSortFixedMid"

/-- The lengths that a strategy takes. A length is one less than a power of two when adding one to
it keeps none of its bits; at the largest size that addition wraps to zero. -/
def supports : Strategy → Nat → Bool
  | bottomUp, _ => true
  | fixedMid, len => Word.isPowerOfTwo len || len &&& Word.wrapSucc len == 0

@[simp] theorem supports_bottomUp (len : Nat) : supports bottomUp len = true := rfl

end Strategy

inductive Level where
  | error
  | warn
  | info
  | debug
  | trace
  deriving DecidableEq, Repr

namespace Level

def detail : Level → Nat
  | error => 1
  | warn => 2
  | info => 3
  | debug => 4
  | trace => 5

def name : Level → String
  | error => "ERROR"
  | warn => "WARN"
  | info => "INFO"
  | debug => "DEBUG"
  | trace => "TRACE"

/-- What stands before the name of a level so that all names end in the same column. -/
def indent : Level → String
  | warn | info => " "
  | error | debug | trace => ""

end Level

inductive FieldValue where
  | count (n : Nat)
  | name (text : String)
  | shown (text : String)
  deriving DecidableEq, Repr

namespace FieldValue

def plain : FieldValue → String
  | count n => Text.decimal n
  | name text => text
  | shown text => text

/-- On the console a name stands in quotes. No name of the program holds a quote or a backslash. -/
def quoted : FieldValue → String
  | name text => "\"" ++ text ++ "\""
  | value => value.plain

end FieldValue

inductive Event where
  | sorting (strategy : Strategy) (len : Nat)
  | mergePass (width : Nat)
  | fixedMidPass (width mid : Nat)
  | demoSorted (len : Nat)
  | demoFailed (reason : String)
  deriving DecidableEq, Repr

namespace Event

def level : Event → Level
  | sorting _ _ => .debug
  | mergePass _ => .trace
  | fixedMidPass _ _ => .trace
  | demoSorted _ => .info
  | demoFailed _ => .error

/-- The part of the program that an event comes from, which log filters select by. -/
def target : Event → String
  | sorting _ _ => "merge_sort"
  | mergePass _ => "merge_sort::algorithms::merge_sort_bottom_up"
  | fixedMidPass _ _ => "merge_sort::algorithms::merge_sort_fixed_mid"
  | demoSorted _ => "merge_demo"
  | demoFailed _ => "merge_demo"

def message : Event → String
  | sorting _ _ => "sorting"
  | mergePass _ => "merge pass"
  | fixedMidPass _ _ => "fixed-mid merge pass"
  | demoSorted _ => "sorted demo input"
  | demoFailed _ => "merge demo failed"

def fields : Event → List (String × FieldValue)
  | sorting strategy len => [("algorithm", .name strategy.name), ("len", .count len)]
  | mergePass width => [("width", .count width)]
  | fixedMidPass width mid => [("width", .count width), ("mid", .count mid)]
  | demoSorted len => [("len", .count len)]
  | demoFailed reason => [("err", .shown reason)]

/-- The names that an event has values for: its message and its fields. -/
def fieldNames (e : Event) : List String := "message" :: e.fields.map Prod.fst

def text (show_ : FieldValue → String) (e : Event) : String :=
  " ".intercalate (e.message :: e.fields.map fun field => field.1 ++ "=" ++ show_ field.2)

def line (e : Event) : String := e.level.name ++ " " ++ e.text FieldValue.plain

def consoleLine (e : Event) : String :=
  e.level.name ++ " " ++ e.target ++ ": " ++ e.text FieldValue.quoted

end Event

end RunMerge
