import LuaSymbols.Text.Blank
import LuaSymbols.Text.Digit

namespace LuaSymbols.Numeral

def mostDigits : Nat := 4300

/-- White space around a numeral. The separators of records do not count. -/
def isMargin (c : Char) : Bool := isBlank c && !(0x1C ≤ c.toNat && c.toNat ≤ 0x1F)

/-- The values of digits with single underscores between them, the first of which is read. -/
def digitsAfter : List Char → Option (List Nat)
  | [] => some []
  | '_' :: c :: rest => do
    let value ← decimalValue? c
    let values ← digitsAfter rest
    return value :: values
  | c :: rest => do
    let value ← decimalValue? c
    let values ← digitsAfter rest
    return value :: values

def ofDigits (values : List Nat) : Nat := values.foldl (fun n v => n * 10 + v) 0

def natural? : List Char → Option Nat
  | [] => none
  | c :: rest => do
    let value ← decimalValue? c
    let values ← digitsAfter rest
    if values.length < mostDigits then return ofDigits (value :: values) else none

def integer? (cs : List Char) : Option Int :=
  let cs := ((cs.dropWhile isMargin).reverse.dropWhile isMargin).reverse
  match cs with
  | '-' :: rest => (natural? rest).map fun n => -(n : Int)
  | '+' :: rest => (natural? rest).map Int.ofNat
  | _ => (natural? cs).map Int.ofNat

end LuaSymbols.Numeral
