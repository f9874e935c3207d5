import LuaSymbols.Number.Binary64

namespace LuaSymbols.Shortest

/-- The decimals between `low / unit` and `high / unit` read back as `value / unit`. -/
structure Interval where
  low : Nat
  value : Nat
  high : Nat
  unit : Nat
  closed : Bool

/-- The interval of a finite number that is not zero. Below a power of two the neighbours are half as
far apart. -/
def Interval.of (significand : Nat) (exponent : Int) : Interval :=
  let narrow := significand == Nat.pow 2 52 && exponent > Binary64.leastExponent
  let (scale, unit) :=
    if 0 ≤ exponent then (Nat.pow 2 exponent.toNat, 4) else (1, 4 * Nat.pow 2 (-exponent).toNat)
  { low := (4 * significand - (if narrow then 1 else 2)) * scale
    value := 4 * significand * scale
    high := (4 * significand + 2) * scale
    unit := unit
    closed := significand % 2 == 0 }

def Interval.inTens (i : Interval) (power : Int) : Interval :=
  if 0 ≤ power then { i with unit := i.unit * Nat.pow 10 power.toNat }
  else
    let k := Nat.pow 10 (-power).toNat
    { i with low := i.low * k, value := i.value * k, high := i.high * k }

def Interval.has (i : Interval) (n : Nat) : Bool :=
  if i.closed then i.low ≤ n * i.unit && n * i.unit ≤ i.high
  else i.low < n * i.unit && n * i.unit < i.high

/-- A whole number in the interval: one of the two around the value, the nearer one if both are. -/
def Interval.pick? (i : Interval) : Option Nat :=
  let below := i.value / i.unit
  let above := below + 1
  let near := roundDiv i.value i.unit
  if i.has near then some near
  else if i.has below then some below
  else if i.has above then some above
  else none

/-- The first grid of powers of ten, from the given one down, that has a point in the interval. -/
def search (i : Interval) : Nat → Int → Nat × Int
  | 0, power => ((i.inTens power).value / (i.inTens power).unit, power)
  | fuel + 1, power =>
    match (i.inTens power).pick? with
    | some n => if n = 0 then search i fuel (power - 1) else (n, power)
    | none => search i fuel (power - 1)

def trimZeros : Nat → Nat × Int → Nat × Int
  | 0, d => d
  | fuel + 1, (n, power) =>
    if n % 10 == 0 && n != 0 then trimZeros fuel (n / 10, power + 1) else (n, power)

/-- The shortest decimal `digits · 10 ^ power` of a finite number that is not zero. -/
def decimal (significand : Nat) (exponent : Int) : Nat × Int :=
  let i := Interval.of significand exponent
  -- The greatest power of ten to try: one above the order of magnitude of the value.
  let whole := i.value / i.unit
  let top : Int := if whole = 0 then 1 else (Nat.toDigits 10 whole).length
  trimZeros 20 (search i 400 top)

end LuaSymbols.Shortest

namespace LuaSymbols

structure DecimalLayout where
  leastPlain : Int
  greatestPlain : Int
  exponentWidth : Nat

namespace Binary64

def layOut (layout : DecimalLayout) (digits : List Char) (power : Int) : List Char :=
  let count : Int := digits.length
  let exponent := count + power - 1
  if layout.leastPlain ≤ exponent && exponent ≤ layout.greatestPlain then
    if 0 ≤ power then digits ++ List.replicate power.toNat '0' ++ ['.', '0']
    else if 0 ≤ exponent then
      digits.take (exponent + 1).toNat ++ '.' :: digits.drop (exponent + 1).toNat
    else '0' :: '.' :: List.replicate (-exponent - 1).toNat '0' ++ digits
  else
    let places := Nat.toDigits 10 exponent.natAbs
    let mark := if exponent < 0 then '-' else '+'
    let tail := if digits.length = 1 then [] else '.' :: digits.drop 1
    digits.take 1 ++ tail ++ 'e' :: mark ::
      List.replicate (layout.exponentWidth - places.length) '0' ++ places

/-- Settings are shown in plain digits from 0.0001 up to below 10^16, and whole numbers with a
zero behind the point. -/
def settingLayout : DecimalLayout := ⟨-4, 15, 2⟩

def text : Binary64 → String
  | .nan => "nan"
  | .infinity negative => if negative then "-inf" else "inf"
  | .finite negative significand exponent =>
    let sign := if negative then ['-'] else []
    if significand = 0 then String.ofList (sign ++ ['0', '.', '0'])
    else
      let (digits, power) := Shortest.decimal significand exponent
      String.ofList (sign ++ layOut settingLayout (Nat.toDigits 10 digits) power)

end Binary64

end LuaSymbols
