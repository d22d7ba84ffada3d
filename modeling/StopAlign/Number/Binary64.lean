import StopAlign.Number.Power

/-!
# Binary64 — doubles as integers times powers of two

- `Parts`, `parts`  : sign, integer and exponent of a double
- `roundRatio`      : a ratio rounded to an integer, ties to even
- `ofRatio`         : the double nearest to a ratio, ties to even
- `integer?`        : the integer that a double is
- `positiveInfinity`, `notANumber` : the special values

A finite double is `± mantissa · 2 ^ exponent` with `mantissa < 2 ^ 53` and `exponent ≥ -1074`. In
this scale the bit pattern of a non-negative double is `(exponent + 1074) · 2 ^ 52 + mantissa`, also
where rounding carries into the next binade or beyond the largest double.
-/

namespace StopAlign
namespace Number

/-- The value `± mantissa · 2 ^ exponent`. -/
structure Parts where
  negative : Bool
  mantissa : Nat
  exponent : Int
  deriving DecidableEq, Repr

/-- The smallest exponent of a double's integer. -/
def leastExponent : Int := -1074

def infinityBits : Nat := 0x7FF0000000000000

def positiveInfinity : Float := Float.ofBits 0x7FF0000000000000

def notANumber : Float := Float.ofBits 0x7FF8000000000000

def isNegative (x : Float) : Bool :=
  x.toBits.toNat ≥ unit63

def parts (x : Float) : Parts :=
  let bits : Nat := x.toBits.toNat % unit63
  let field : Nat := bits / unit52
  let fraction : Nat := bits % unit52
  -- without a field the hidden digit is missing
  if field = 0 then ⟨isNegative x, fraction, leastExponent⟩
  else ⟨isNegative x, unit52 + fraction, leastExponent + (field : Int) - 1⟩

/-- A ratio rounded to the nearest integer, a tie to the even one. -/
def roundRatio (num den : Nat) : Nat :=
  let quotient := num / den
  let twice := 2 * (num % den)
  if twice < den then quotient
  else if den < twice then quotient + 1
  else quotient + quotient % 2

def scaleDown (num den : Nat) (exponent : Int) : Nat × Nat :=
  if 0 ≤ exponent then (num, den * twoTo exponent.toNat) else (num * twoTo (-exponent).toNat, den)

/-- The exponent at which the ratio `num / den` has 53 binary digits, but not below
`leastExponent`. -/
def exponentFor (num den : Nat) : Int :=
  let high : Int := max ((num.log2 : Int) - (den.log2 : Int) - 52) leastExponent
  let (n, d) := scaleDown num den high
  -- the logarithms may be off by one
  if n / d < unit52 ∧ leastExponent < high then high - 1 else high

/-- The double of a bit pattern with a sign, where patterns from infinity on mean infinity. -/
def ofPattern (negative : Bool) (bits : Nat) : Float :=
  let bounded := if bits < infinityBits then bits else infinityBits
  Float.ofBits (UInt64.ofNat (if negative then bounded + unit63 else bounded))

def ofRatio (negative : Bool) (num den : Nat) : Float :=
  if num = 0 then ofPattern negative 0
  else
    let exponent := exponentFor num den
    let (n, d) := scaleDown num den exponent
    -- a mantissa that rounds up to a power of two carries into the exponent
    ofPattern negative ((exponent - leastExponent).toNat * unit52 + roundRatio n d)

def ofInteger (n : Int) : Float :=
  ofRatio (n < 0) n.natAbs 1

def integer? (x : Float) : Option Int :=
  if !x.isFinite then none
  else
    let p := parts x
    let magnitude? : Option Nat :=
      if 0 ≤ p.exponent then some (p.mantissa * twoTo p.exponent.toNat)
      else
        let unit := twoTo (-p.exponent).toNat
        if p.mantissa % unit = 0 then some (p.mantissa / unit) else none
    magnitude?.map fun n => if p.negative then -(n : Int) else n

end Number
end StopAlign
