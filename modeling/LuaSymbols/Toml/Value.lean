import LuaSymbols.Number.Numeral
import LuaSymbols.Number.Shortest
import LuaSymbols.Text.Quoted
import LuaSymbols.Toml.Moment

namespace LuaSymbols.Toml

inductive Value where
  | string (s : String)
  | integer (n : Int)
  | float (x : Binary64)
  | boolean (b : Bool)
  | date (d : Date)
  | time (t : Time)
  /-- A day with a time, and perhaps its distance from universal time in minutes. -/
  | moment (d : Date) (t : Time) (offset : Option Int)
  | array (items : List Value)
  | table (entries : List (String × Value))

namespace Value

instance : Inhabited Value := ⟨.boolean false⟩

def integerText? (n : Int) : Option String :=
  if n.natAbs < Nat.pow 10 Numeral.mostDigits then some (toString n) else none

def booleanText (b : Bool) : String := if b then "True" else "False"

def joined (items : List String) : String := ", ".intercalate items

mutual

def listing? : Value → Option String
  | .string s => some (quoted s)
  | .integer n => integerText? n
  | .float x => some x.text
  | .boolean b => some (booleanText b)
  | .date d => some d.listing
  | .time t => some t.listing
  | .moment d t offset => some (momentListing d t offset)
  | .array items => do
    let items ← listings? items
    return s!"[{joined items}]"
  | .table entries => do
    let entries ← entryListings? entries
    return s!"\x7b{joined entries}\x7d"

def listings? : List Value → Option (List String)
  | [] => some []
  | v :: rest => do
    let first ← listing? v
    let others ← listings? rest
    return first :: others

def entryListings? : List (String × Value) → Option (List String)
  | [] => some []
  | (key, v) :: rest => do
    let first ← listing? v
    let others ← entryListings? rest
    return s!"{quoted key}: {first}" :: others

end

def text? : Value → Option String
  | .string s => some s
  | .date d => some d.text
  | .time t => some t.text
  | .moment d t offset =>
    let zone := (offset.map offsetText).getD ""
    some s!"{d.text} {t.text}{zone}"
  | v => v.listing?

/-- Whether a value counts as true: all do but zero, false and what is empty. -/
def truth : Value → Bool
  | .string s => !s.isEmpty
  | .integer n => n != 0
  | .float x => !x.isZero
  | .boolean b => b
  | .array items => !items.isEmpty
  | .table entries => !entries.isEmpty
  | .date _ | .time _ | .moment .. => true

end Value

end LuaSymbols.Toml
