import StopAlign.Number.Shortest

/-!
# Fixed — a fixed number of decimal places

- `scaled`     : the exact value of a double times a power of ten, rounded to an integer
- `writeFixed` : the text of a double with a fixed number of places after the point

Rounding acts on the exact binary value; a tie goes to the even neighbour.
-/

namespace StopAlign
namespace Number

/-- The magnitude of a finite double times `10 ^ places`, rounded to an integer. -/
def scaled (places : Nat) (x : Float) : Nat :=
  let p := parts x
  let r := Ratio.binary p.mantissa p.exponent
  roundRatio (r.num * tenTo places) r.den

def pointed (places : Nat) (n : Nat) : String :=
  if places = 0 then toString n
  else toString (n / tenTo places) ++ "." ++ padZeros places (toString (n % tenTo places))

def writeFixed (places : Nat) (x : Float) : String :=
  if x.isNaN then "nan"
  else
    let sign := if isNegative x then "-" else ""
    if x.isInf then sign ++ "inf" else sign ++ pointed places (scaled places x)

end Number
end StopAlign
