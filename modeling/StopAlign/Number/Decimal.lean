import StopAlign.Text.Digit
import StopAlign.Number.Binary64

/-!
# Decimal — reading numerals

- `Numeral`, `Numeral.read?` : a decimal numeral in ASCII and its exact value
- `readWord?`                : the words for infinity and for "no number"
- `readReal?`                : a real number, in any script, with groups and white space around it
- `readWhole?`               : a whole number of any size, written the same way
- `Reading`, `Reading.of`    : a cell of a numeric column, ASCII only

A numeral has an optional sign, digits with an optional point and at least one digit, and an
optional exponent with at least one digit. The loose readers accept decimal digits of all scripts
and single underscores between digits.
-/

namespace StopAlign
namespace Number

open Text

/-! ## Numerals -/

/-- The value `± digits · 10 ^ scale`; `whole` says that neither point nor exponent was written. -/
structure Numeral where
  negative : Bool
  digits : Nat
  scale : Int
  whole : Bool
  deriving DecidableEq, Repr

def isDigit (c : Char) : Bool :=
  (asciiDigit? c).isSome

def digitsValue (cs : List Char) : Nat :=
  cs.foldl (fun value c => 10 * value + (asciiDigit? c).getD 0) 0

def takeSign : List Char → Bool × List Char
  | '-' :: cs => (true, cs)
  | '+' :: cs => (false, cs)
  | cs => (false, cs)

/-- The exponent part: absent, or a letter, a sign and at least one digit. -/
def readExponent? : List Char → Option (Option Int)
  | [] => some none
  | e :: cs =>
    if e = 'e' ∨ e = 'E' then
      let (negative, digits) := takeSign cs
      if digits.isEmpty || !digits.all isDigit then none
      else
        let value : Int := digitsValue digits
        some (some (if negative then -value else value))
    else none

def takeFraction : List Char → Option (List Char) × List Char
  | '.' :: cs => (some (cs.takeWhile isDigit), cs.dropWhile isDigit)
  | cs => (none, cs)

def Numeral.read? (cs : List Char) : Option Numeral :=
  let (negative, body) := takeSign cs
  let front := body.takeWhile isDigit
  let (fraction, rest) := takeFraction (body.dropWhile isDigit)
  let back := fraction.getD []
  -- a point alone is no numeral
  if front.isEmpty && back.isEmpty then none
  else
    (readExponent? rest).map fun exponent =>
      { negative
        digits := digitsValue (front ++ back)
        scale := exponent.getD 0 - back.length
        whole := fraction.isNone && exponent.isNone }

/-- The double nearest to a numeral. Numerals far outside the range of doubles are settled by their
size, without writing out the power of ten: `10 ^ k` has more than `3 · k` binary digits. -/
def Numeral.toFloat (n : Numeral) : Float :=
  if n.digits = 0 then ofPattern n.negative 0
  else if 1025 ≤ (n.digits.log2 : Int) + 3 * n.scale ∧ 0 ≤ n.scale then
    ofPattern n.negative infinityBits
  else if (n.digits.log2 : Int) + 1100 < -3 * n.scale then ofPattern n.negative 0
  else if 0 ≤ n.scale then ofRatio n.negative (n.digits * tenTo n.scale.toNat) 1
  else ofRatio n.negative n.digits (tenTo (-n.scale).toNat)

def Numeral.toInt (n : Numeral) : Int :=
  if n.negative then -(n.digits : Int) else n.digits

/-! ## Words -/

def readInfinity? (cs : List Char) : Option Float :=
  let (negative, body) := takeSign cs
  let word := String.ofList (body.map Char.toLower)
  if word = "inf" ∨ word = "infinity" then some (ofPattern negative infinityBits) else none

def readWord? (cs : List Char) : Option Float :=
  match readInfinity? cs with
  | some x => some x
  | none =>
    if String.ofList ((takeSign cs).2.map Char.toLower) = "nan" then some notANumber else none

/-! ## Loose numerals -/

def plainDigit (c : Char) : Char :=
  match digitValue? c with
  | some d => Char.ofNat (48 + d)
  | none => c

/-- Drop the underscores that stand between two digits, and refuse all others. `afterDigit` says
that the previous character is a digit. -/
def joinGroups? (afterDigit : Bool) : List Char → Option (List Char)
  | [] => some []
  | c :: cs =>
    if c = '_' then
      if afterDigit && (cs.head?.any isDigit) then joinGroups? false cs else none
    else (joinGroups? (isDigit c) cs).map (c :: ·)

def plainNumeral? (s : String) : Option (List Char) :=
  joinGroups? false ((trimBy isMargin s.toList).map plainDigit)

def readReal? (s : String) : Option Float :=
  (plainNumeral? s).bind fun cs =>
    match Numeral.read? cs with
    | some n => some n.toFloat
    | none => readWord? cs

/-- The largest number of digits of a whole number that is read. -/
def wholeDigitLimit : Nat := 4300

/-- Read a whole number: an optional sign and digits, leading zeros included in their count. -/
def readWhole? (s : String) : Option Int :=
  (plainNumeral? s).bind fun cs =>
    let (negative, digits) := takeSign cs
    if digits.isEmpty || !digits.all isDigit || wholeDigitLimit < digits.length then none
    else
      let value : Int := digitsValue digits
      some (if negative then -value else value)

/-! ## Cells of numeric columns -/

/-- A cell of a numeric column: empty, an integer with the double nearest to it, another number, an
integer with too many digits, an integer that a null character cuts short, or no numeral. The double
of a negative zero has its sign. -/
inductive Reading
  | blank
  | whole (n : Int) (x : Float)
  | real (x : Float)
  | long (digits : Nat)
  | severed
  | wrong
  deriving DecidableEq

def isAsciiMargin (c : Char) : Bool :=
  c == ' ' || (9 ≤ c.toNat && c.toNat ≤ 13)

def isNull (c : Char) : Bool := c.toNat == 0

def Reading.ofDigits (n : Numeral) (cs front : List Char) : Reading :=
  let digits := (takeSign front).2.length
  if wholeDigitLimit < digits then .long digits
  else if cs.any isNull then .severed
  else .whole n.toInt n.toFloat

/-- Read a trimmed cell. A null character ends it, except that an integer has to fill it. -/
def Reading.of (s : String) : Reading :=
  let cs := s.toList
  if cs.isEmpty then .blank
  else
    -- blanks are dropped in front of the null character, too
    let word := cs.takeWhile (!isNull ·)
    let front := trimBy isAsciiMargin word
    match Numeral.read? front with
    | some n => if n.whole then .ofDigits n cs front else .real n.toFloat
    | none =>
      match readInfinity? word with
      | some x => .real x
      | none => .wrong

end Number
end StopAlign
