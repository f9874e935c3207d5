import LuaSymbols.Toml.Value

namespace LuaSymbols.Toml

inductive ReadError where
  | malformed
  | tooManyDigits
deriving DecidableEq, Repr

def isWhite (c : Char) : Bool := c == ' ' || c == '\t'

def skipWhite (cs : List Char) : List Char := cs.dropWhile isWhite

def isControl (c : Char) : Bool := (c.toNat < 0x20 && c != '\t') || c.toNat == 0x7F

def skipComment? : List Char → Option (List Char)
  | '#' :: rest =>
    let line := rest.takeWhile (· != '\n')
    if line.any isControl then none else some (rest.dropWhile (· != '\n'))
  | cs => some cs

def hexNumber? (cs : List Char) : Option Nat :=
  cs.foldlM (fun n c =>
    if c.isDigit then some (n * 16 + (c.toNat - 0x30))
    else if 'a' ≤ c && c ≤ 'f' then some (n * 16 + (c.toNat - 0x57))
    else if 'A' ≤ c && c ≤ 'F' then some (n * 16 + (c.toNat - 0x37))
    else none) 0

def hexChar? (digits : List Char) (width : Nat) : Option Char := do
  if digits.length ≠ width then none
  let n ← hexNumber? digits
  if n.isValidChar then some (Char.ofNat n) else none

def escapeChar? : Char → Option Char
  | 'b' => some '\x08'
  | 't' => some '\t'
  | 'n' => some '\n'
  | 'f' => some '\x0C'
  | 'r' => some '\r'
  | '"' => some '"'
  | '\\' => some '\\'
  | _ => none

/-- Skips the end of a line and all white space after it. Only white space may stand before the end of
the line. -/
def skipLineEnd? (cs : List Char) : Option (List Char) :=
  match skipWhite cs with
  | [] => some []
  | '\n' :: rest => some (rest.dropWhile fun c => isWhite c || c == '\n')
  | _ => none

/-- What an escape stands for, given the characters after its backslash. Texts of several lines may
escape the end of a line. -/
def escape? (multiline : Bool) : List Char → Option (List Char × List Char)
  | 'u' :: rest => (hexChar? (rest.take 4) 4).map fun c => ([c], rest.drop 4)
  | 'U' :: rest => (hexChar? (rest.take 8) 8).map fun c => ([c], rest.drop 8)
  | c :: rest =>
    if multiline && (isWhite c || c == '\n') then
      (skipLineEnd? (c :: rest)).map fun rest => ([], rest)
    else (escapeChar? c).map fun e => ([e], rest)
  | [] => none

/-- A text in double quotes, after its opening quotes. Every step takes a character at least, so fuel
for each character is enough. -/
def basicText? (multiline : Bool) : Nat → Array Char → List Char → Option (List Char × List Char)
  | 0, _, _ => none
  | _ + 1, _, [] => none
  | fuel + 1, done, c :: rest =>
    if c == '"' then
      if !multiline then some (done.toList, rest)
      else if ['"', '"'].isPrefixOf rest then some (done.toList, rest.drop 2)
      else basicText? multiline fuel (done.push c) rest
    else if c == '\\' then
      match escape? multiline rest with
      | some (part, rest) => basicText? multiline fuel (done ++ part) rest
      | none => none
    else if isControl c && !(multiline && c == '\n') then none
    else basicText? multiline fuel (done.push c) rest

def literalText? (cs : List Char) : Option (List Char × List Char) :=
  let text := cs.takeWhile (· != '\'')
  match cs.dropWhile (· != '\'') with
  | _ :: rest => if text.any isControl then none else some (text, rest)
  | [] => none

def literalLines? (done : Array Char) : List Char → Option (List Char × List Char)
  | '\'' :: '\'' :: '\'' :: rest => some (done.toList, rest)
  | c :: rest =>
    if isControl c && c != '\n' then none else literalLines? (done.push c) rest
  | [] => none

/-- Up to two quotes right after the closing ones belong to a text of several lines. -/
def withExtraQuotes (quote : Char) (read : List Char × List Char) : List Char × List Char :=
  let extra := (read.2.takeWhile (· == quote)).take 2
  (read.1 ++ extra, read.2.drop extra.length)

/-- A line end right after the opening quotes does not belong to a text of several lines. -/
def dropFirstLineEnd : List Char → List Char
  | '\n' :: rest => rest
  | cs => cs

def text? : List Char → Option (Option (List Char × List Char))
  | '"' :: '"' :: '"' :: rest =>
    some ((basicText? true (rest.length + 1) #[] (dropFirstLineEnd rest)).map (withExtraQuotes '"'))
  | '"' :: rest => some (basicText? false (rest.length + 1) #[] rest)
  | '\'' :: '\'' :: '\'' :: rest =>
    some ((literalLines? #[] (dropFirstLineEnd rest)).map (withExtraQuotes '\''))
  | '\'' :: rest => some (literalText? rest)
  | _ => none

/-- Digits with single underscores between them, up to the first character that is neither. -/
def digitRun (digit : Char → Bool) : List Char → List Char × List Char
  | '_' :: c :: rest =>
    if digit c then
      let (digits, rest) := digitRun digit rest
      (c :: digits, rest)
    else ([], '_' :: c :: rest)
  | c :: rest =>
    if digit c then
      let (digits, rest) := digitRun digit rest
      (c :: digits, rest)
    else ([], c :: rest)
  | [] => ([], [])

def digits? (digit : Char → Bool) (cs : List Char) : Option (List Char × List Char) :=
  match cs with
  | c :: _ => if digit c then some (digitRun digit cs) else none
  | [] => none

def isHex (c : Char) : Bool := c.isDigit || ('a' ≤ c && c ≤ 'f') || ('A' ≤ c && c ≤ 'F')

def isOctal (c : Char) : Bool := '0' ≤ c && c ≤ '7'

def isBinary (c : Char) : Bool := c == '0' || c == '1'

def numberIn (base : Nat) (digits : List Char) : Nat :=
  digits.foldl (fun n c => n * base + (hexNumber? [c]).getD 0) 0

def basedInteger? : List Char → Option (Value × List Char)
  | '0' :: 'x' :: rest => (digits? isHex rest).map fun (d, rest) => (.integer (numberIn 16 d), rest)
  | '0' :: 'o' :: rest => (digits? isOctal rest).map fun (d, rest) => (.integer (numberIn 8 d), rest)
  | '0' :: 'b' :: rest => (digits? isBinary rest).map fun (d, rest) => (.integer (numberIn 2 d), rest)
  | _ => none

/-- A sign, if one stands here: whether it is a minus. -/
def sign : List Char → Bool × List Char
  | '-' :: rest => (true, rest)
  | '+' :: rest => (false, rest)
  | cs => (false, cs)

/-- The whole part of a decimal number: a zero alone, or digits that start with another. -/
def wholePart? : List Char → Option (List Char × List Char)
  | '0' :: rest => some (['0'], rest)
  | cs => digits? Char.isDigit cs

def fractionPart : List Char → Option (List Char) × List Char
  | '.' :: rest =>
    match digits? Char.isDigit rest with
    | some (digits, rest) => (some digits, rest)
    | none => (none, '.' :: rest)
  | cs => (none, cs)

def exponentPart (cs : List Char) : Option Int × List Char :=
  match cs with
  | c :: rest =>
    if c == 'e' || c == 'E' then
      let (negative, rest) := sign rest
      match digits? Char.isDigit rest with
      | some (digits, rest) =>
        let n : Int := numberIn 10 digits
        (some (if negative then -n else n), rest)
      | none => (none, cs)
    else (none, cs)
  | [] => (none, [])

def decimal? (cs : List Char) : Option (Except ReadError (Value × List Char)) := do
  let (negative, rest) := sign cs
  let (whole, rest) ← wholePart? rest
  let (fraction, rest) := fractionPart rest
  let (power, rest) := exponentPart rest
  if fraction.isNone && power.isNone then
    if whole.length > Numeral.mostDigits then return .error .tooManyDigits
    let n : Int := numberIn 10 whole
    return .ok (.integer (if negative then -n else n), rest)
  else
    let tail := fraction.getD []
    return .ok (.float (.ofDecimal negative (numberIn 10 (whole ++ tail))
      (power.getD 0 - tail.length)), rest)

def wordFloats : List (String × Binary64) :=
  [("inf", .infinity false), ("nan", .nan), ("-inf", .infinity true), ("+inf", .infinity false),
   ("-nan", .nan), ("+nan", .nan)]

def wordFloat? (cs : List Char) : Option (Value × List Char) :=
  (wordFloats.find? fun (word, _) => word.toList.isPrefixOf cs).map fun (word, x) =>
    (.float x, cs.drop word.length)

def fixedNumber? (width low high : Nat) (cs : List Char) : Option (Nat × List Char) :=
  let digits := cs.take width
  let n := numberIn 10 digits
  if digits.length = width && digits.all Char.isDigit && low ≤ n && n ≤ high then
    some (n, cs.drop width)
  else none

def expect? (c : Char) : List Char → Option (List Char)
  | d :: rest => if d == c then some rest else none
  | [] => none

/-- The fraction of a second in millionths; further digits are dropped. -/
def microseconds : List Char → Nat × List Char
  | '.' :: rest =>
    let digits := rest.takeWhile Char.isDigit
    if digits.isEmpty then (0, '.' :: rest)
    else
      let six := digits.take 6
      (numberIn 10 (six ++ List.replicate (6 - six.length) '0'), rest.dropWhile Char.isDigit)
  | cs => (0, cs)

def time? (cs : List Char) : Option (Time × List Char) := do
  let (hour, rest) ← fixedNumber? 2 0 23 cs
  let rest ← expect? ':' rest
  let (minute, rest) ← fixedNumber? 2 0 59 rest
  let rest ← expect? ':' rest
  let (second, rest) ← fixedNumber? 2 0 59 rest
  let (microsecond, rest) := microseconds rest
  return (⟨hour, minute, second, microsecond⟩, rest)

def date? (cs : List Char) : Option (Date × List Char) := do
  let (year, rest) ← fixedNumber? 4 0 9999 cs
  let rest ← expect? '-' rest
  let (month, rest) ← fixedNumber? 2 1 12 rest
  let rest ← expect? '-' rest
  let (day, rest) ← fixedNumber? 2 1 31 rest
  return (⟨year, month, day⟩, rest)

def offset (cs : List Char) : Option Int × List Char :=
  let signed (negative : Bool) (rest : List Char) : Option (Int × List Char) := do
    let (hours, rest) ← fixedNumber? 2 0 23 rest
    let rest ← expect? ':' rest
    let (minutes, rest) ← fixedNumber? 2 0 59 rest
    let total : Int := (hours * 60 + minutes : Nat)
    return (if negative then -total else total, rest)
  let found := match cs with
    | 'Z' :: rest | 'z' :: rest => some (0, rest)
    | '+' :: rest => signed false rest
    | '-' :: rest => signed true rest
    | _ => none
  match found with
  | some (minutes, rest) => (some minutes, rest)
  | none => (none, cs)

def timeAfter? : List Char → Option (Time × List Char)
  | c :: rest => if c == 'T' || c == 't' || c == ' ' then time? rest else none
  | [] => none

/-- A day, perhaps with a time and its distance from universal time. A day that the calendar lacks is
refused. -/
def moment? (cs : List Char) : Option (Except ReadError (Value × List Char)) := do
  let (d, rest) ← date? cs
  if !d.isValid then return .error .malformed
  match timeAfter? rest with
  | none => return .ok (.date d, rest)
  | some (t, rest) =>
    let (minutes, rest) := offset rest
    return .ok (.moment d t minutes, rest)

def scalar (cs : List Char) : Except ReadError (Value × List Char) :=
  match text? cs with
  | some (some (text, rest)) => .ok (.string (String.ofList text), rest)
  | some none => .error .malformed
  | none =>
    if "true".toList.isPrefixOf cs then .ok (.boolean true, cs.drop 4)
    else if "false".toList.isPrefixOf cs then .ok (.boolean false, cs.drop 5)
    else
      match moment? cs with
      | some read => read
      | none =>
        match time? cs with
        | some (t, rest) => .ok (.time t, rest)
        | none =>
          match basedInteger? cs with
          | some read => .ok read
          | none =>
            match decimal? cs with
            | some read => read
            | none =>
              match wordFloat? cs with
              | some read => .ok read
              | none => .error .malformed

end LuaSymbols.Toml
