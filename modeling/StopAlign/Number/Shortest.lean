import StopAlign.Number.Binary64

/-!
# Shortest — the fewest digits that read back

- `Digits`         : a positive decimal numeral without point
- `shortest`       : the shortest numeral inside the rounding interval of a double
- `Style`, `write` : the text of a double, positional or with an exponent
- `plainStyle`     : the style of numbers in messages and identifiers

The reals that round to `mantissa · 2 ^ exponent` form an interval, its ends included exactly when
the mantissa is even. For one digit, two digits and so on, `shortest` tries the neighbours of the
value on that decimal grid; the first grid that meets the interval wins, and of two hits the nearer
one.
-/

namespace StopAlign
namespace Number

structure Digits where
  value : Nat
  scale : Int
  deriving DecidableEq, Repr

/-- A ratio of natural numbers; the denominator is positive. -/
structure Ratio where
  num : Nat
  den : Nat

def Ratio.binary (n : Nat) (e : Int) : Ratio :=
  if 0 ≤ e then ⟨n * twoTo e.toNat, 1⟩ else ⟨n, twoTo (-e).toNat⟩

def Ratio.decimal (n : Nat) (e : Int) : Ratio :=
  if 0 ≤ e then ⟨n * tenTo e.toNat, 1⟩ else ⟨n, tenTo (-e).toNat⟩

def Ratio.less (a b : Ratio) : Bool :=
  a.num * b.den < b.num * a.den

def Ratio.gap (a b : Ratio) : Ratio :=
  let left := a.num * b.den
  let right := b.num * a.den
  ⟨if left < right then right - left else left - right, a.den * b.den⟩

/-! ## The rounding interval -/

/-- The reals that round to a double: both ends, and whether they belong to it. -/
structure Interval where
  low : Ratio
  high : Ratio
  closed : Bool

/-- The interval of a positive double. Below a power of two the next double is only half as far. -/
def Interval.around (p : Parts) : Interval :=
  let low :=
    -- the lower neighbour of a power of two is half as far
    if p.mantissa = unit52 ∧ leastExponent < p.exponent
    then Ratio.binary (4 * p.mantissa - 1) (p.exponent - 2)
    else Ratio.binary (2 * p.mantissa - 1) (p.exponent - 1)
  ⟨low, Ratio.binary (2 * p.mantissa + 1) (p.exponent - 1), p.mantissa % 2 == 0⟩

def Interval.holds (i : Interval) (r : Ratio) : Bool :=
  if i.closed then !r.less i.low && !i.high.less r else i.low.less r && r.less i.high

/-! ## The shortest numeral -/

/-- The number of digits before the point of a positive ratio: the least `k` with the ratio below
`10 ^ k`, found by stepping up from an estimate by the binary logarithm. -/
def decade (r : Ratio) : Int :=
  let estimate := ((r.num.log2 : Int) - (r.den.log2 : Int) - 1) * 30103 / 100000
  if r.less (Ratio.decimal 1 estimate) then estimate
  else if r.less (Ratio.decimal 1 (estimate + 1)) then estimate + 1
  else if r.less (Ratio.decimal 1 (estimate + 2)) then estimate + 2
  else estimate + 3

/-- The neighbour of a ratio on the grid of multiples of `10 ^ scale` that lies in the interval, the
nearer one if both do, and the even one if they are equally near. -/
def onGrid? (i : Interval) (r : Ratio) (scale : Int) : Option Digits :=
  let unit := Ratio.decimal 1 scale
  let below := r.num * unit.den / (r.den * unit.num)
  let lower := Ratio.decimal below scale
  let upper := Ratio.decimal (below + 1) scale
  match i.holds lower, i.holds upper with
  | true, true =>
    let down := r.gap lower
    let up := r.gap upper
    if down.less up then some ⟨below, scale⟩
    else if up.less down then some ⟨below + 1, scale⟩
    else some ⟨below + below % 2, scale⟩
  | true, false => some ⟨below, scale⟩
  | false, true => some ⟨below + 1, scale⟩
  | false, false => none

/-- The shortest numeral of a positive finite double. Seventeen digits always suffice. -/
def shortest (p : Parts) : Digits :=
  let r := Ratio.binary p.mantissa p.exponent
  let i := Interval.around p
  let top := decade r
  match (List.range 17).findSome? fun (n : Nat) => onGrid? i r (top - 1 - (n : Int)) with
  | some digits => digits
  | none => ⟨r.num / r.den, 0⟩

/-! ## Text -/

/-- How the text of a double looks: which decimal exponents are written out, the sign of a positive
exponent and the least number of its digits. -/
structure Style where
  positionalFrom : Int
  positionalBelow : Int
  plusSign : String
  exponentDigits : Nat

/-- Exponents from -4 to 15 are written out; other exponents have a sign and two digits at least. -/
def plainStyle : Style := ⟨-4, 16, "+", 2⟩

def padZeros (width : Nat) (s : String) : String :=
  String.ofList (List.replicate (width - s.length) '0') ++ s

/-- The text of `0.d₁d₂… · 10 ^ point` in a style. -/
def writeDigits (style : Style) (digits : List Char) (point : Int) : String :=
  let exponent := point - 1
  if style.positionalFrom ≤ exponent ∧ exponent < style.positionalBelow then
    if point ≤ 0 then
      "0." ++ String.ofList (List.replicate (-point).toNat '0' ++ digits)
    else
      -- a whole number shows a zero behind the point
      let places := point.toNat
      let front := digits.take places ++ List.replicate (places - digits.length) '0'
      let back := digits.drop places
      String.ofList front ++ "." ++ (if back.isEmpty then "0" else String.ofList back)
  else
    let front := String.ofList (digits.take 1)
    let back := String.ofList (digits.drop 1)
    let mantissa := if digits.length ≤ 1 then front else front ++ "." ++ back
    let sign := if exponent < 0 then "-" else style.plusSign
    mantissa ++ "e" ++ sign ++ padZeros style.exponentDigits (toString exponent.natAbs)

def write (style : Style) (x : Float) : String :=
  if x.isNaN then "nan"
  else
    let sign := if isNegative x then "-" else ""
    if x.isInf then sign ++ "inf"
    else
      let p := parts x
      if p.mantissa = 0 then sign ++ "0.0"
      else
        let d := shortest p
        let digits := (toString d.value).toList
        -- the upper neighbour of a grid can be a power of ten, which ends in a zero
        let leading := (digits.reverse.dropWhile (· == '0')).reverse
        sign ++ writeDigits style leading (digits.length + d.scale)

def writeReal (x : Float) : String :=
  write plainStyle x

end Number
end StopAlign
