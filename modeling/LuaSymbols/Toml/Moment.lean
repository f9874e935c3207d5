namespace LuaSymbols.Toml

structure Date where
  year : Nat
  month : Nat
  day : Nat
deriving DecidableEq, Repr

structure Time where
  hour : Nat
  minute : Nat
  second : Nat
  microsecond : Nat
deriving DecidableEq, Repr

namespace Date

def isLeap (year : Nat) : Bool := year % 4 == 0 && (year % 100 != 0 || year % 400 == 0)

def daysIn (year month : Nat) : Nat :=
  if month == 2 then if isLeap year then 29 else 28
  else if [4, 6, 9, 11].contains month then 30
  else 31

/-- Whether the calendar has the day. It begins with the year one. -/
def isValid (d : Date) : Bool :=
  1 ≤ d.year && 1 ≤ d.month && d.month ≤ 12 && 1 ≤ d.day && d.day ≤ daysIn d.year d.month

end Date

def padded (width n : Nat) : String :=
  let digits := Nat.toDigits 10 n
  String.ofList (List.replicate (width - digits.length) '0' ++ digits)

def Date.text (d : Date) : String := s!"{padded 4 d.year}-{padded 2 d.month}-{padded 2 d.day}"

def Time.text (t : Time) : String :=
  let whole := s!"{padded 2 t.hour}:{padded 2 t.minute}:{padded 2 t.second}"
  if t.microsecond = 0 then whole else s!"{whole}.{padded 6 t.microsecond}"

def offsetText (minutes : Int) : String :=
  let sign := if minutes < 0 then "-" else "+"
  s!"{sign}{padded 2 (minutes.natAbs / 60)}:{padded 2 (minutes.natAbs % 60)}"

/-- The parts of a time that a listing shows: seconds and fractions are left out from the end while
they are zero. -/
def Time.parts (t : Time) : List Nat :=
  if t.microsecond ≠ 0 then [t.hour, t.minute, t.second, t.microsecond]
  else if t.second ≠ 0 then [t.hour, t.minute, t.second]
  else [t.hour, t.minute]

def listed (parts : List Nat) : String := ", ".intercalate (parts.map toString)

def Date.listing (d : Date) : String := s!"datetime.date({listed [d.year, d.month, d.day]})"

def Time.listing (t : Time) : String := s!"datetime.time({listed t.parts})"

/-- A distance from universal time in a listing. Distances to the west count from a day before. -/
def offsetListing (minutes : Int) : String :=
  if minutes = 0 then "datetime.timezone.utc"
  else
    let days := if minutes < 0 then "days=-1, " else ""
    s!"datetime.timezone(datetime.timedelta({days}seconds={minutes % 1440 * 60}))"

def momentListing (d : Date) (t : Time) (offset : Option Int) : String :=
  let zone := match offset with
    | none => ""
    | some minutes => s!", tzinfo={offsetListing minutes}"
  s!"datetime.datetime({listed ([d.year, d.month, d.day] ++ t.parts)}{zone})"

end LuaSymbols.Toml
