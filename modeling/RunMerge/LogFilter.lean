import RunMerge.Event
import RunMerge.Pattern

/-!
# Log filters

A filter is a list of directives, each a level for certain events. A directive may name the beginning of
their targets, and one field that they have to have. A directive that names a span, or the value of a
field, is about what happens inside of spans; the program has none, so such a directive never decides
about an event. Of all directives that are about an event one decides whether it is shown; an event that
no directive is about is not shown.

In writing, a directive is a level alone, a target alone, a target and its level with an equals
sign between, or either of the last two with `[span{field=value}]` after the target. Commas stand
between directives.
-/

namespace RunMerge

inductive Subject where
  | events (field : Option (List Char))
  | spans
  deriving DecidableEq, Repr

structure Directive where
  /-- The beginning of the targets; empty for all targets. -/
  scope : List Char
  subject : Subject
  /-- The last level to be let through; nothing passes if absent. -/
  threshold : Option Level
  deriving DecidableEq, Repr

namespace Directive

def covers (d : Directive) (e : Event) : Bool :=
  d.scope.isPrefixOf e.target.toList &&
    match d.subject with
    | .events none => true
    | .events (some field) => e.fieldNames.any (·.toList == field)
    | .spans => false

def admits (d : Directive) (level : Level) : Bool :=
  match d.threshold with
  | some threshold => level.detail ≤ threshold.detail
  | none => false

/-- Of two directives about one event, the one with the longer scope decides; at equal scopes one
with a field before one without, and the field that comes later in order; else the later one. -/
def yieldsTo (earlier later : Directive) : Bool :=
  if earlier.scope.length ≠ later.scope.length then earlier.scope.length < later.scope.length
  else match earlier.subject, later.subject with
    | .events (some f), .events (some g) => !decide (g < f)
    | .events (some _), _ => false
    | _, _ => true

/-- The words for levels, which may be written in capitals, and their numbers. -/
def readThreshold? (cs : List Char) : Option (Option Level) :=
  match Text.readSize? cs with
  | some 0 => some none
  | some 1 => some (some .error)
  | some 2 => some (some .warn)
  | some 3 => some (some .info)
  | some 4 => some (some .debug)
  | some 5 => some (some .trace)
  | _ =>
    match String.ofList (cs.map Char.toLower) with
    | "off" => some none
    | "error" => some (some .error)
    | "warn" => some (some .warn)
    | "info" => some (some .info)
    | "debug" => some (some .debug)
    | "trace" => some (some .trace)
    | _ => none

/-- A target begins with a letter, a number, a hyphen, a colon or an underscore. -/
def opensTarget (c : Char) : Bool :=
  c == '-' || c == ':' || c == '_' || Text.isAlphanumeric c

/-- Reads a field, perhaps with a value, which has to be a number or a pattern. A second equals
sign ends the value. -/
def readSubject? (cs : List Char) : Option Subject :=
  match Text.split '=' cs with
  | _ :: value :: _ =>
    if Text.isNumber value || Pattern.isPattern value then some .spans
    else none
  | [name] => some (.events (some name))
  | [] => none

def readLevel? (piece : List Char) (position : Nat) : Option (Option Level) := do
  let level ← Text.dropBytes position piece
  if level.isEmpty then some (some .trace) else readThreshold? level

def readWord (piece : List Char) : Directive :=
  match readThreshold? piece with
  | some threshold => ⟨[], .events none, threshold⟩
  | none => ⟨piece, .events none, some .trace⟩

/-- Reads what may stand behind a closing bracket, which is at byte `position`. -/
def readEnd? (piece : List Char) (position : Nat) (scope : List Char) (subject : Subject) :
    List Char → Option Directive
  | [] => some ⟨scope, subject, some .trace⟩
  | '=' :: _ => do some ⟨scope, subject, ← readLevel? piece (position + 2)⟩
  | _ => none

/-- Reads what follows an opening bracket, the first `position` bytes being read: the name of a
span, a field in braces, or both. -/
def readBracket? (piece : List Char) (position : Nat) (scope body : List Char) :
    Option Directive :=
  match body.span fun c => c != ']' && c != '\x7b' with
  | (name, ']' :: rest) =>
    readEnd? piece (position + Text.byteLength name) scope .spans rest
  | (name, _ :: body) =>
    match body.span (· != '\x7d') with
    | (field, _ :: ']' :: rest) => do
      if field.isEmpty then none
      else
        let position := position + Text.byteLength name + 1
        let subject ← readSubject? (← Text.cut piece position (Text.byteLength field))
        let subject := if name.isEmpty then subject else .spans
        readEnd? piece (position + Text.byteLength field + 1) scope subject rest
    | _ => none
  | (_, []) => none

/-- Reads a directive. The blanks at both ends do not count when its parts are looked for, but the
parts are then taken from the same byte positions of the directive as it was written. So a blank in
front of it always shows in its target, and one behind it in its level or its single word. -/
def read? (piece : List Char) : Option Directive :=
  let text := Text.trim piece
  let (word, rest) := text.span fun c => c != '=' && c != '['
  let position := Text.byteLength word
  if word.head?.all opensTarget then
    match word, rest with
    | _ :: _, [] => some (readWord piece)
    | _ :: _, '=' :: _ => do
      let scope ← Text.takeBytes position piece
      some ⟨scope, .events none, ← readLevel? piece (position + 1)⟩
    | _, '[' :: body => do readBracket? piece (position + 1) (← Text.takeBytes position piece) body
    | _, _ => none
  else
    none

end Directive

abbrev LogFilter := List Directive

namespace LogFilter

/-- Without instructions, warnings and errors are shown. -/
def standard : LogFilter := [⟨[], .events none, some .warn⟩]

/-- Reads directives between commas. Every one of them has to be readable. -/
def read? (text : String) : Option LogFilter :=
  ((Text.split ',' text.toList).filter (· ≠ [])).mapM Directive.read?

/-- The filter of an optional text; one that cannot be read counts as absent. -/
def ofText? (text : Option String) : LogFilter := (text.bind read?).getD standard

def deciding (filter : LogFilter) (e : Event) : Option Directive :=
  (filter.filter (·.covers e)).foldl (fun best d =>
    match best with
    | some b => if b.yieldsTo d then some d else some b
    | none => some d) none

def shows (filter : LogFilter) (e : Event) : Bool :=
  match filter.deciding e with
  | some d => d.admits e.level
  | none => false

end LogFilter

end RunMerge
