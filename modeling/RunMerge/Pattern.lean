import RunMerge.Text.Letters

/-!
# Patterns for field values

A log filter may describe the value of a field by a regular expression. Here it is only decided
which texts are such expressions; nothing of the program is ever matched against one. The language
has groups, alternatives, classes with set operations, the three operators `?`, `*` and `+`, and
flags. Counted repetition is not part of it, for the brace that closes a count ends the pattern.
Classes of letters and digits by their meaning, and folding of case, exist for single bytes only
and so need the flag that turns characters off.

A pattern is a tree. Groups, repeated parts and classes are one level deeper than what they hold,
and so are parts that stand side by side, be it one after another, as alternatives, or as members
of a class. Patterns may be only so deep.

A class in brackets has single characters, ranges, classes by name and classes in brackets as its
members, and the operators for what two classes share and in what they differ. A class of bytes
stays among the common characters of all encodings, so it cannot be an opposite. A class of
characters whose case is folded can have no members but such classes, and is then all or nothing.
-/

namespace RunMerge.Pattern

/-- How the text is read: whether case is folded, whether it stands for characters rather than for
bytes, and whether blanks and remarks in it are skipped. -/
structure Mode where
  foldCase : Bool
  characters : Bool
  spaced : Bool
  deriving DecidableEq, Repr

namespace Mode

def initial : Mode := ⟨false, true, false⟩

/-- What comes next. In spaced mode blanks do not count, nor does a remark up to the end of its
line. -/
def skip (mode : Mode) (cs : List Char) : List Char :=
  if mode.spaced then go false cs else cs
where
  go (inRemark : Bool) : List Char → List Char
    | [] => []
    | c :: cs =>
      if inRemark then go (c != '\n') cs
      else if c == '#' then go true cs
      else if Text.isBlank c then go false cs
      else c :: cs

/-- The character by which the meaning of the one before it is decided. In spaced mode blanks do not
count, nor does the sign that begins a remark; yet the remark itself is not passed over. -/
def ahead? (mode : Mode) (cs : List Char) : Option Char :=
  if mode.spaced then
    match cs.dropWhile Text.isBlank with
    | '#' :: cs => (cs.dropWhile Text.isBlank).head?
    | cs => cs.head?
  else cs.head?

/-- The character may stand for itself. There is no table of the cases of all characters, so none
of them may stand where their case is to be folded. -/
def admitsCharacters (mode : Mode) : Bool := mode.characters && !mode.foldCase

end Mode

def depthLimit : Nat := 250

/-- The depth of parts that stand side by side. A part alone is not wrapped. -/
def sideBySide : List Nat → Nat
  | [] => 0
  | [depth] => depth
  | depths => depths.foldl max 0 + 1

/-- A class whose end has not been reached. -/
structure OpenClass where
  /-- The depths of the members since the last operator. -/
  members : List Nat
  /-- The depth of everything before that operator. -/
  left : Option Nat
  /-- There has been nothing but hyphens. -/
  fresh : Bool
  deriving DecidableEq, Repr

namespace OpenClass

def initial : OpenClass := ⟨[], none, true⟩

/-- The depth of what the class holds. An operator wraps both of its sides, and of several
operators a later one holds the earlier ones. -/
def inside (c : OpenClass) : Nat :=
  match c.left with
  | none => sideBySide c.members
  | some left => max left (sideBySide c.members) + 1

def depth (c : OpenClass) : Nat := c.inside + 1

def add (c : OpenClass) (depth : Nat) : OpenClass := ⟨depth :: c.members, c.left, false⟩

def addHyphen (c : OpenClass) : OpenClass := ⟨0 :: c.members, c.left, c.fresh⟩

def operate (c : OpenClass) : OpenClass := ⟨[], some c.inside, false⟩

end OpenClass

structure OpenGroup where
  /-- The depths of the parts of this alternative, the last part first. -/
  parts : List Nat
  branches : List Nat
  deriving DecidableEq, Repr

namespace OpenGroup

def initial : OpenGroup := ⟨[], []⟩

def inside (g : OpenGroup) : Nat := sideBySide (sideBySide g.parts :: g.branches)

def depth (g : OpenGroup) : Nat := g.inside + 1

def add (g : OpenGroup) (depth : Nat) : OpenGroup := { g with parts := depth :: g.parts }

def wrapLast (g : OpenGroup) : OpenGroup :=
  match g.parts with
  | [] => g
  | depth :: parts => { g with parts := (depth + 1) :: parts }

def branch (g : OpenGroup) : OpenGroup := ⟨[], sideBySide g.parts :: g.branches⟩

end OpenGroup

inductive Escape where
  | literal (code : Nat) (byte : Bool)
  | named (negated : Bool)
  | border
  | anchor
  deriving DecidableEq, Repr

namespace Escape

def readHex? (mode : Mode) : (count : Nat) → (value : Nat) → List Char → Option (Nat × List Char)
  | 0, value, cs => some (value, cs)
  | _ + 1, _, [] => none
  | count + 1, value, c :: cs => do
    let digit ← digit? c
    readHex? mode count (16 * value + digit) (mode.skip cs)
where
  digit? (c : Char) : Option Nat :=
    if c.isDigit then some (c.toNat - '0'.toNat)
    else if 'a' ≤ c ∧ c ≤ 'f' then some (c.toNat - 'a'.toNat + 10)
    else if 'A' ≤ c ∧ c ≤ 'F' then some (c.toNat - 'A'.toNat + 10)
    else none

/-- A character given by so many digits, which has to exist. -/
def readCode? (mode : Mode) (count : Nat) (cs : List Char) : Option (Escape × List Char) := do
  let (code, rest) ← readHex? mode count 0 (mode.skip cs)
  if code.isValidChar then some (.literal code (count == 2), rest) else none

def controls : List (Char × Nat) :=
  [('a', 7), ('t', 9), ('n', 10), ('v', 11), ('f', 12), ('r', 13)]

def read? (mode : Mode) : List Char → Option (Escape × List Char)
  | [] => none
  | c :: cs =>
    if c == 'x' then readCode? mode 2 cs
    else if c == 'u' then readCode? mode 4 cs
    else if c == 'U' then readCode? mode 8 cs
    else if ['d', 's', 'w'].contains c then some (.named false, cs)
    else if ['D', 'S', 'W'].contains c then some (.named true, cs)
    else if c == 'b' then if cs.head? = some '\x7b' then none else some (.border, cs)
    else if ['B', '<', '>'].contains c then some (.border, cs)
    else if ['A', 'z'].contains c then some (.anchor, cs)
    else if let some code := controls.lookup c then some (.literal code false, cs)
    else if c.toNat < 128 && !c.isAlphanum then some (.literal c.toNat false, cs)
    else none

/-- The escape may stand outside of a class. A byte must not be a part of a longer character. -/
def admittedBy (mode : Mode) : Escape → Bool
  | .literal code byte => mode.admitsCharacters || !mode.characters && (!byte || code < 128)
  | .named negated => !mode.characters && !negated
  | .border => !mode.characters
  | .anchor => true

end Escape

inductive Member where
  | literal (code : Nat)
  | named (negated : Bool)
  deriving DecidableEq, Repr

namespace Member

def read? (mode : Mode) : List Char → Option (Member × List Char)
  | [] => none
  | '\\' :: cs => do
    match ← Escape.read? mode cs with
    | (.literal code _, rest) => some (.literal code, rest)
    | (.named negated, rest) => some (.named negated, rest)
    | (.border, _) => none
    | (.anchor, _) => none
  | c :: cs => some (.literal c.toNat, cs)

/-- The member may stand in a class. -/
def admittedBy (mode : Mode) : Member → Bool
  | .literal code => mode.admitsCharacters || !mode.characters && code < 128
  | .named negated => !mode.characters && !negated

/-- Reads a member or a range of characters, which must not run backwards. A hyphen before another
hyphen or before the end of the class begins no range. -/
def readRange? (mode : Mode) (cs : List Char) : Option (List Char) := do
  let (first, rest) ← read? mode cs
  if !first.admittedBy mode then none
  else match mode.skip rest with
    | [] => none
    | '-' :: rest =>
      if mode.ahead? rest = some ']' ∨ mode.ahead? rest = some '-' then some ('-' :: rest)
      else do
        let (last, rest) ← read? mode (mode.skip rest)
        match first, last with
        | .literal a, .literal b => if a ≤ b ∧ last.admittedBy mode then some rest else none
        | _, _ => none
    | rest => some rest

end Member

def classNames : List String :=
  ["alnum", "alpha", "ascii", "blank", "cntrl", "digit", "graph", "lower", "print", "punct",
   "space", "upper", "word", "xdigit"]

/-- Reads a class by name after its opening bracket, and whether it is the opposite. -/
def readClassName? (cs : List Char) : Option (Bool × List Char) :=
  match cs with
  | ':' :: '^' :: cs => go true cs
  | ':' :: cs => go false cs
  | _ => none
where
  go (negated : Bool) (cs : List Char) : Option (Bool × List Char) :=
    match cs.span (· != ':') with
    | (name, ':' :: ']' :: rest) =>
      if classNames.contains (String.ofList name) then some (negated, rest) else none
    | _ => none

def admitsClassName (mode : Mode) (negated : Bool) : Bool :=
  mode.admitsCharacters || !mode.characters && !negated

def skipNegation? (mode : Mode) (cs : List Char) : Option (List Char) :=
  match mode.skip cs with
  | '^' :: cs => if mode.characters then some cs else none
  | cs => some cs

namespace OpenClass

/-- Reads to the end of the outermost class, and gives its depth. A class begins with hyphens, or
with a closing bracket that does not close it. Every round takes a character at least, so `rounds`
may be one more than their number. -/
def read? (mode : Mode) : (rounds : Nat) → (current : OpenClass) → (outer : List OpenClass) →
    List Char → Option (Nat × List Char)
  | 0, _, _, _ => none
  | rounds + 1, current, outer, cs =>
    match mode.skip cs with
    | [] => none
    | '[' :: cs =>
      match readClassName? cs with
      | some (negated, rest) =>
        if admitsClassName mode negated then read? mode rounds (current.add 0) outer rest
        else none
      | none => do read? mode rounds .initial (current :: outer) (← skipNegation? mode cs)
    | ']' :: cs =>
      if current.fresh && current.members.isEmpty then
        if (Member.literal ']'.toNat).admittedBy mode then
          read? mode rounds (current.add 0) outer cs
        else none
      else
        match outer with
        | [] => some (current.depth, cs)
        | parent :: outer => read? mode rounds (parent.add current.depth) outer cs
    | '&' :: '&' :: cs => read? mode rounds current.operate outer cs
    | '~' :: '~' :: cs => read? mode rounds current.operate outer cs
    | '-' :: cs =>
      if current.fresh then
        if (Member.literal '-'.toNat).admittedBy mode then
          read? mode rounds current.addHyphen outer cs
        else none
      else
        match cs with
        | '-' :: cs => read? mode rounds current.operate outer cs
        | cs => do
          read? mode rounds (current.add 0) outer (← Member.readRange? mode ('-' :: cs))
    | cs => do read? mode rounds (current.add 0) outer (← Member.readRange? mode cs)

end OpenClass

def readClass? (mode : Mode) (cs : List Char) : Option (Nat × List Char) := do
  let rest ← skipNegation? mode cs
  OpenClass.read? mode (rest.length + 1) .initial [] rest

/-- Reads flags up to the colon or parenthesis behind them. The answer holds the new mode, that
character, and whether there was a flag at all. -/
def readFlags? (mode : Mode) (seen : List Char) (negated dangling : Bool) :
    List Char → Option (Mode × Char × Bool × List Char)
  | [] => none
  | c :: cs =>
    if c == ':' || c == ')' then
      if dangling then none else some (mode, c, !seen.isEmpty, cs)
    else if seen.contains c then none
    else match c with
      | '-' => readFlags? mode (c :: seen) true true cs
      | 'i' => readFlags? { mode with foldCase := !negated } (c :: seen) negated false cs
      | 'u' => readFlags? { mode with characters := !negated } (c :: seen) negated false cs
      | 'x' => readFlags? { mode with spaced := !negated } (c :: seen) negated false cs
      | 'm' | 's' | 'U' | 'R' => readFlags? mode (c :: seen) negated false cs
      | _ => none

def opensName (c : Char) : Bool := c == '_' || Text.isAlphabetic c

def continuesName (c : Char) : Bool :=
  c == '_' || c == '.' || c == '[' || c == ']' || Text.isAlphanumeric c

def readName? (cs : List Char) : Option (List Char × List Char) :=
  match cs.span (· != '>') with
  | (c :: name, '>' :: rest) =>
    if opensName c && name.all continuesName then some (c :: name, rest) else none
  | _ => none

structure Scan where
  mode : Mode
  current : OpenGroup
  /-- The groups around it, and the modes to return to when those inside of them end. -/
  outer : List (Mode × OpenGroup)
  names : List (List Char)
  /-- An operator may follow. -/
  operand : Bool
  deriving DecidableEq, Repr

namespace Scan

def initial : Scan := ⟨.initial, .initial, [], [], false⟩

def enter (s : Scan) (mode : Mode) : Scan :=
  ⟨mode, .initial, (s.mode, s.current) :: s.outer, s.names, false⟩

def enterNamed? (s : Scan) (cs : List Char) : Option (Scan × List Char) := do
  let (name, rest) ← readName? cs
  if s.names.contains name then none
  else some ({ s.enter s.mode with names := name :: s.names }, rest)

/-- A part has been read that an operator may follow. -/
def add (s : Scan) (depth : Nat) : Scan :=
  { s with current := s.current.add depth, operand := true }

/-- Flags are a part too, but no operator may follow them. -/
def addFlags (s : Scan) (mode : Mode) : Scan :=
  { s with mode := mode, current := s.current.add 0, operand := false }

def open? (s : Scan) (cs : List Char) : Option (Scan × List Char) :=
  match s.mode.skip cs with
  | '?' :: '!' :: _ => none
  | '?' :: '=' :: _ => none
  | '?' :: '<' :: '!' :: _ => none
  | '?' :: '<' :: '=' :: _ => none
  | '?' :: 'P' :: '<' :: cs => s.enterNamed? cs
  | '?' :: '<' :: cs => s.enterNamed? cs
  | '?' :: cs => do
    let (mode, last, any, rest) ← readFlags? s.mode [] false false cs
    if last == ':' then some (s.enter mode, rest)
    else if any then some (s.addFlags mode, rest)
    else none
  | cs => some (s.enter s.mode, cs)

def close? (s : Scan) : Option Scan :=
  match s.outer with
  | [] => none
  | (mode, group) :: outer =>
    some { s with
      mode := mode, current := group.add s.current.depth, outer := outer, operand := true }

def step? (s : Scan) : List Char → Option (Scan × List Char)
  | [] => none
  | c :: cs =>
    match c with
    | '(' => s.open? cs
    | ')' => do some (← s.close?, cs)
    | '|' => some ({ s with current := s.current.branch, operand := false }, cs)
    | '[' => do
      let (depth, rest) ← readClass? s.mode cs
      some (s.add depth, rest)
    | '?' | '*' | '+' =>
      if s.operand then
        some ({ s with current := s.current.wrapLast }, if cs.head? = some '?' then cs.tail else cs)
      else none
    | '\x7b' => none
    | '\\' => do
      let (escape, rest) ← Escape.read? s.mode cs
      if escape.admittedBy s.mode then some (s.add 0, rest) else none
    | '.' => if s.mode.characters then some (s.add 0, cs) else none
    | '^' | '$' => some (s.add 0, cs)
    | c =>
      if (Escape.literal c.toNat false).admittedBy s.mode then some (s.add 0, cs) else none

/-- Reads to the end, where no group may be open, and gives the depth. Every round takes a
character at least. -/
def depth? (rounds : Nat) (s : Scan) (cs : List Char) : Option Nat :=
  match s.mode.skip cs, rounds with
  | [], _ => if s.outer.isEmpty then some s.current.inside else none
  | _ :: _, 0 => none
  | cs, rounds + 1 => do
    let (s, rest) ← s.step? cs
    depth? rounds s rest

end Scan

def depth? (cs : List Char) : Option Nat := Scan.initial.depth? cs.length cs

def isPattern (cs : List Char) : Bool := (depth? cs).any (· ≤ depthLimit)

end RunMerge.Pattern
