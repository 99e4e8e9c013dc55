import ModuleAtlas.Json.Basic

/-! # Numbers in binary floating point

Reading rounds a decimal to the nearest double. Writing takes the fewest digits
that read back as the same double, of two such numbers the nearer one. The
digits are found on exact natural numbers, one decimal grid after another.
-/

namespace ModuleAtlas

/-- The double nearest to a decimal. Exponents far beyond the range of doubles
need no power of ten. -/
def Decimal.toFloat (x : Decimal) : Float :=
  let size : Int := (Nat.toDigits 10 x.digits).length
  let magnitude :=
    if x.digits = 0 || x.exponent + size < -400 then 0.0
    else if 400 < x.exponent + size then 1.0 / 0.0
    else if x.exponent < 0 then Float.ofScientific x.digits true x.exponent.natAbs
    else Float.ofScientific x.digits false x.exponent.natAbs
  if x.negative then -magnitude else magnitude

namespace Shortest

/-- A positive double as an exact fraction over `scale`, between the ends of
the interval of numbers that round to it; `closed` says whether the ends do
too. -/
structure Interval where
  low : Nat
  value : Nat
  high : Nat
  scale : Nat
  closed : Bool

/-- The interval of the double `mantissa · 2 ^ exponent`. Below a power of two
the grid of doubles is twice as fine. -/
def interval (mantissa : Nat) (exponent : Int) (finer : Bool) : Interval :=
  let up := Nat.pow 2 exponent.toNat
  let down := 4 * Nat.pow 2 (-exponent).toNat
  { low := (4 * mantissa - if finer then 1 else 2) * up
    value := 4 * mantissa * up
    high := (4 * mantissa + 2) * up
    scale := down
    closed := mantissa % 2 = 0 }

/-- The decimal exponent of the first digit of `value / scale`, given a bound on
its size. -/
def leading (value scale : Nat) : Nat → Int
  | 0 => 0
  | fuel + 1 =>
      if scale ≤ value then ((Nat.toDigits 10 (value / scale)).length : Int) - 1
      else leading (value * 10) scale fuel - 1

/-- The number nearest to the value among its two neighbours with the given
number of digits, if one lies in the interval. -/
def onGrid (range : Interval) (first : Int) (count : Nat) : Option Nat :=
  let unit : Int := first - count + 1
  let up := Nat.pow 10 unit.toNat
  let down := Nat.pow 10 (-unit).toNat
  let below := range.value * down / (range.scale * up)
  let inside (candidate : Nat) : Bool :=
    let scaled := candidate * up * range.scale
    if range.closed then range.low * down ≤ scaled && scaled ≤ range.high * down
    else range.low * down < scaled && scaled < range.high * down
  let distance (candidate : Nat) : Nat :=
    let scaled : Int := candidate * up * range.scale
    (scaled - range.value * down).natAbs
  match inside below, inside (below + 1) with
  | true, true =>
      if distance (below + 1) < distance below then some (below + 1)
      else if distance below < distance (below + 1) then some below
      else some (if below % 2 = 0 then below else below + 1)
  | true, false => some below
  | false, true => some (below + 1)
  | false, false => none

/-- The first grid that has a number in the interval: that number, and the
exponent of its last digit. -/
def search (range : Interval) (first : Int) : List Nat → Nat × Int
  | [] => (0, 0)
  | count :: counts =>
      match onGrid range first count with
      | some digits => (digits, first - count + 1)
      | none => search range first counts

/-- The digits of a positive finite double and the exponent of the last one. -/
def digits (bits : Nat) : Nat × Int :=
  let exponent : Nat := bits / Nat.pow 2 52 % 2048
  let fraction : Nat := bits % Nat.pow 2 52
  let mantissa := if exponent = 0 then fraction else fraction + Nat.pow 2 52
  let power : Int := (if exponent = 0 then 1 else (exponent : Int)) - 1075
  let range := interval mantissa power (fraction = 0 && 1 < exponent)
  search range (leading range.value range.scale 400) ((List.range 17).map (· + 1))

/-- Digits without the zeros at their end. -/
def stripZeros (digits : List Char) : List Char :=
  (digits.reverse.dropWhile (· = '0')).reverse

/-- The text of a positive number: positional while its first digit stands
between the fourth place behind the point and the sixteenth before it. -/
def layout (digits : Nat) (exponent : Int) : List Char :=
  let all := Nat.toDigits 10 digits
  let first : Int := exponent + all.length - 1
  let kept := stripZeros all
  if first < -4 || 16 ≤ first then
    let sign := if first < 0 then '-' else '+'
    let power := Nat.toDigits 10 first.natAbs
    let tail := kept.drop 1
    kept.take 1 ++ (if tail.isEmpty then [] else '.' :: tail) ++ ['e', sign] ++
      (if power.length < 2 then '0' :: power else power)
  else if first < 0 then
    ['0', '.'] ++ List.replicate (first.natAbs - 1) '0' ++ kept
  else
    let whole := kept.take (first.toNat + 1)
    let tail := kept.drop (first.toNat + 1)
    whole ++ List.replicate (first.toNat + 1 - whole.length) '0' ++ '.' ::
      (if tail.isEmpty then ['0'] else tail)

end Shortest

/-- The fewest digits that read back as a double. -/
def shortestText (x : Float) : String :=
  if x.isNaN then "nan"
  else
    let bits := x.toBits.toNat
    let sign := if Nat.pow 2 63 ≤ bits then "-" else ""
    if x.isInf then sign ++ "inf"
    else
      let magnitude := bits % Nat.pow 2 63
      if magnitude = 0 then sign ++ "0.0"
      else
        let (digits, exponent) := Shortest.digits magnitude
        sign ++ String.ofList (Shortest.layout digits exponent)

end ModuleAtlas
