/-!
# Texts as lists of characters

The pieces of a text between separators, the decimal text of numbers, the spellings of numbers, and
the bytes under which a text is written. A line holds 32-bit integers in decimal, with one space
between neighbours. No information is lost: a line can be read back.
-/

namespace RunMerge.Text

/-- The pieces of a text between separators. There is one piece more than there are separators. -/
def split (sep : Char) : List Char → List (List Char)
  | [] => [[]]
  | c :: rest =>
    if c = sep then [] :: split sep rest
    else match split sep rest with
      | [] => [[c]]
      | piece :: others => (c :: piece) :: others

def ofNat (n : Nat) : List Char := Nat.toDigits 10 n

/-- The decimal digits of an integer, after a minus sign if it is negative. -/
def ofInt : Int → List Char
  | .ofNat n => ofNat n
  | .negSucc n => '-' :: ofNat (n + 1)

def decimal (n : Nat) : String := String.ofList (ofNat n)

/-- Reads digits, of which there has to be one at least. -/
def readNat? (cs : List Char) : Option Nat :=
  if cs ≠ [] ∧ cs.all Char.isDigit then some (Nat.ofDigitChars 10 cs 0) else none

def readInt? : List Char → Option Int
  | '-' :: cs => (readNat? cs).map fun n => -(n : Int)
  | cs => (readNat? cs).map fun n => (n : Int)

def dropSign : List Char → List Char
  | '+' :: cs => cs
  | '-' :: cs => cs
  | cs => cs

/-- Reads a size: digits after an optional plus sign, for a number that is below the limit. -/
def readSize? (cs : List Char) : Option Nat :=
  let digits := match cs with
    | '+' :: rest => rest
    | _ => cs
  (readNat? digits).filter (· < UInt64.size)

def isExponent : List Char → Bool
  | [] => true
  | c :: cs => (c == 'e' || c == 'E') && dropSign cs ≠ [] && (dropSign cs).all Char.isDigit

/-- Digits with at most one point among them, of which one digit at least, and an exponent. -/
def isDecimal (cs : List Char) : Bool :=
  let (whole, rest) := cs.span Char.isDigit
  let (fraction, rest) := match rest with
    | '.' :: rest => rest.span Char.isDigit
    | rest => ([], rest)
  (whole ≠ [] || fraction ≠ []) && isExponent rest

/-- A spelling of a number, infinite ones and undefined ones included. -/
def isNumber (cs : List Char) : Bool :=
  let cs := dropSign cs
  let word := String.ofList (cs.map Char.toLower)
  word == "inf" || word == "infinity" || word == "nan" || isDecimal cs

def bytes (cs : List Char) : List UInt8 := cs.flatMap String.utf8EncodeChar

def byteLength : List Char → Nat
  | [] => 0
  | c :: cs => c.utf8Size + byteLength cs

/-- What follows the first `count` bytes, if a character ends there. -/
def dropBytes (count : Nat) : List Char → Option (List Char)
  | [] => if count = 0 then some [] else none
  | c :: cs =>
    if count = 0 then some (c :: cs)
    else if c.utf8Size ≤ count then dropBytes (count - c.utf8Size) cs
    else none

/-- The first `count` bytes, if a character ends there. -/
def takeBytes (count : Nat) : List Char → Option (List Char)
  | [] => if count = 0 then some [] else none
  | c :: cs =>
    if count = 0 then some []
    else if c.utf8Size ≤ count then (takeBytes (count - c.utf8Size) cs).map (c :: ·)
    else none

/-- The part of a text that begins after `first` bytes and has `count` bytes. -/
def cut (cs : List Char) (first count : Nat) : Option (List Char) := do
  takeBytes count (← dropBytes first cs)

theorem isDigit_of_mem_ofNat {n : Nat} {c : Char} (h : c ∈ ofNat n) : c.isDigit = true :=
  Nat.isDigit_of_mem_toDigits (by decide) (by decide) h

theorem readNat?_ofNat (n : Nat) : readNat? (ofNat n) = some n := by
  have digits : (ofNat n).all Char.isDigit = true :=
    List.all_eq_true.mpr fun _ h => isDigit_of_mem_ofNat h
  have nonempty : ofNat n ≠ [] := Nat.toDigits_ne_nil
  rw [readNat?, if_pos ⟨nonempty, digits⟩, ofNat, Nat.ofDigitChars_toDigits (by decide) (by decide)]

end RunMerge.Text

namespace RunMerge.Line

def chars (values : List Int32) : List Char :=
  [' '].intercalate (values.map fun value => Text.ofInt value.toInt)

def render (values : List Int32) : String := String.ofList (chars values)

/-- Reads one value, which has to fit into 32 bits. -/
def readValue? (cs : List Char) : Option Int32 :=
  match Text.readInt? cs with
  | some n => if Int32.minValue.toInt ≤ n ∧ n ≤ Int32.maxValue.toInt then some (.ofInt n) else none
  | none => none

/-- Reads a line: the empty one as no values, any other one piece by piece between single
spaces. -/
def read? (line : String) : Option (List Int32) :=
  if line = "" then some [] else (Text.split ' ' line.toList).mapM readValue?

end RunMerge.Line
