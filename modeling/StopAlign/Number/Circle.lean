import StopAlign.Number.Binary64

/-!
# Circle — sine, cosine and arcsine, rounded to the nearest double

- `piTo`           : the number π with a given number of fraction bits
- `Turn`, `turn`   : an angle as a number of quarter turns and a rest within the first octant
- `alternating`    : the nested form of the series of sine and cosine
- `sine`, `cosine` : of a finite double
- `arcsine`        : of a double from -1 to 1

Angles and values are natural numbers that count units of `2 ^ -128`. A series is cut off where its
terms drop below the unit, so results carry about a hundred exact bits before the one rounding to a
double. Doubles below `2 ^ -27` are their own sine and arcsine after rounding.
-/

namespace StopAlign
namespace Number

/-! ## The number π -/

/-- The fraction digits of π to the base `2 ^ 64`. -/
def piWords : List Nat :=
  [
    0x243F6A8885A308D3, 0x13198A2E03707344, 0xA4093822299F31D0, 0x082EFA98EC4E6C89,
    0x452821E638D01377, 0xBE5466CF34E90C6C, 0xC0AC29B7C97C50DD, 0x3F84D5B5B5470917,
    0x9216D5D98979FB1B, 0xD1310BA698DFB5AC, 0x2FFD72DBD01ADFB7, 0xB8E1AFED6A267E96,
    0xBA7C9045F12C7F99, 0x24A19947B3916CF7, 0x0801F2E2858EFC16, 0x636920D871574E69,
    0xA458FEA3F4933D7E, 0x0D95748F728EB658, 0x718BCD5882154AEE, 0x7B54A41DC25A59B5]

/-- The number π in units of `2 ^ -(64 · words)`. -/
def piTo (words : Nat) : Nat :=
  (piWords.take words).foldl (fun value word => value * unit64 + word) 3

/-! ## Angles -/

def circleBits : Nat := 128

def one : Nat := twoTo circleBits

/-- The doubles from here up need more than themselves: `2 ^ -27`. -/
def plainBelow : Float := Float.ofBits 0x3E40000000000000

/-- The angle `quarters` quarter turns and `rest` units. A complement says that the rest counts
backwards from the next quarter turn; either way it is at most an eighth of a turn. -/
structure Turn where
  quarters : Nat
  rest : Nat
  complement : Bool

/-- The magnitude of a finite double, cut into quarter turns. The larger the double is, the more
digits of π take part. -/
def turn (p : Parts) : Turn :=
  let words := 4 + (p.exponent + 53).toNat / 64
  let half := piTo words / 2
  let angle :=
    if 0 ≤ p.exponent then p.mantissa * twoTo p.exponent.toNat * twoTo (64 * words)
    else p.mantissa * twoTo (64 * words) / twoTo (-p.exponent).toNat
  let rest := angle % half
  let complement := decide (half < 2 * rest)
  -- count from the nearer quarter turn
  let near := if complement then half - rest else rest
  ⟨angle / half, near / twoTo (64 * words - circleBits), complement⟩

/-! ## Series -/

/-- The nested series `1 - s / (k (k + 1)) · (1 - s / ((k + 2) (k + 3)) · …)` of a given number of
steps. -/
def alternating (square k : Nat) : Nat → Nat
  | 0 => one
  | steps + 1 => one - square * alternating square (k + 2) steps / one / (k * (k + 1))

/-- The number of steps after which the powers of a square below one are less than a unit. -/
def stepsFor (square : Nat) : Nat :=
  circleBits / (circleBits - square.log2) + 1

/-- The sine of at most an eighth of a turn. Factorials make 16 steps enough. -/
def octantSine (rest : Nat) : Nat :=
  let square := rest * rest / one
  rest * alternating square 2 (min 16 (stepsFor square)) / one

def octantCosine (rest : Nat) : Nat :=
  let square := rest * rest / one
  alternating square 1 (min 16 (stepsFor square))

namespace Turn

/-- The magnitude of the sine of the part of an angle beyond its quarter turns. -/
def innerSine (t : Turn) : Nat :=
  if t.complement then octantCosine t.rest else octantSine t.rest

def innerCosine (t : Turn) : Nat :=
  if t.complement then octantSine t.rest else octantCosine t.rest

def sine (t : Turn) : Bool × Nat :=
  match t.quarters % 4 with
  | 0 => (false, t.innerSine)
  | 1 => (false, t.innerCosine)
  | 2 => (true, t.innerSine)
  | _ => (true, t.innerCosine)

end Turn

/-! ## Doubles -/

def sine (x : Float) : Float :=
  if x.isNaN || x.abs < plainBelow then x
  else
    let p := parts x
    let (negative, value) := (turn p).sine
    ofRatio (negative != p.negative) value one

/-- The cosine of a finite double, the sine of the angle a quarter turn on. -/
def cosine (x : Float) : Float :=
  if x.isNaN then x
  else
    let t := turn (parts x)
    let (negative, value) := { t with quarters := t.quarters + 1 }.sine
    ofRatio negative value one

/-! ## The inverse -/

/-- One step of Newton's method for a square root, from above, as long as it descends. -/
def descend (n : Nat) : Nat → Nat → Nat
  | 0, guess => guess
  | fuel + 1, guess =>
    let next := (guess + n / guess) / 2
    if next < guess then descend n fuel next else guess

/-- The square root of a number, rounded down. The first guess is a power of two above it. -/
def squareRoot (n : Nat) : Nat :=
  descend n (n.log2 + 1) (twoTo (n.log2 / 2 + 1))

def halfTangent (t : Nat) : Nat :=
  t * one / (one + squareRoot (one * one + t * t))

/-- The nested series `1 / k - s · (1 / (k + 2) - s · …)` of a given number of steps. -/
def reciprocals (square k : Nat) : Nat → Nat
  | 0 => 0
  | steps + 1 => one / k - square * reciprocals square (k + 2) steps / one

/-- The angle of a tangent from 0 to 1. The angle is halved, at most as often as the fuel says,
until the tangent is below a sixteenth. -/
def arctangent : Nat → Nat → Nat
  | 0, t =>
    let square := t * t / one
    t * reciprocals square 1 (stepsFor square) / one
  | fuel + 1, t =>
    if 16 * t < one then arctangent 0 t else 2 * arctangent fuel (halfTangent t)

/-- The arcsine of a double from -1 to 1; doubles beyond count as the nearer of these. -/
def arcsine (x : Float) : Float :=
  if x.isNaN || x.abs < plainBelow then x
  else if x.abs < 1 then
    let p := parts x
    let value := p.mantissa * one / twoTo (-p.exponent).toNat
    -- the tangent of half the angle is the sine over one plus the cosine
    let across := squareRoot ((one - value) * (one + value))
    ofRatio p.negative (2 * arctangent 4 (value * one / (one + across))) one
  else ofRatio (isNegative x) (piTo 4) (2 * twoTo (64 * 4))

end Number
end StopAlign
