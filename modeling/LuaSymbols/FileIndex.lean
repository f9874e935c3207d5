import LuaSymbols.Table
import LuaSymbols.Text.CodePoint
import LuaSymbols.Text.Quoted
import LuaSymbols.Walk

namespace LuaSymbols

abbrev Parser := Text → Except ParseError Node

structure FileIndex where
  identity : String
  dirty : Bool
  occurrences : List Occurrence
  symbols : List Symbol
  byName : Table Symbol
  walkCount : Nat
  lastError : Option ParseFailure
deriving DecidableEq

namespace FileIndex

def new (identity : String) : FileIndex := ⟨identity, true, [], [], [], 0, none⟩

def tabulate (symbols : List Symbol) : Table Symbol :=
  symbols.foldl (fun t s => t.put s.name s) []

def markDirty (f : FileIndex) : FileIndex := { f with dirty := true }

/-- Notes why the latest text could not be parsed. The mark stays as it is: a failure does not make a
clean index dirty. -/
def fail (f : FileIndex) (failure : ParseFailure) : FileIndex := { f with lastError := some failure }

def accept (f : FileIndex) (found : Findings) : FileIndex :=
  { f with
    dirty := false
    occurrences := found.occurrences.toList
    symbols := found.symbols.toList
    byName := tabulate found.symbols.toList
    walkCount := f.walkCount + 1
    lastError := none }

/-- Indexes a text. The answer is the failure to parse it, if any. -/
def rebuild (f : FileIndex) (text : Text) (parser : Parser) :
    Except Fault (FileIndex × Option ParseFailure) :=
  match parser text with
  | .error (.failure failure) => .ok (f.fail failure, some failure)
  | .error (.fault fault) => .error fault
  | .ok tree =>
    match tree.walk f.identity with
    | .error fault => .error fault
    | .ok found => .ok (f.accept found, none)

def occurrenceAt? (f : FileIndex) (p : Position) : Option Occurrence :=
  f.occurrences.find? fun o => o.range.contains p

def describe (f : FileIndex) : String :=
  let state := if f.dirty then "dirty" else "clean"
  s!"FileIndex({quoted f.identity}, {state}, symbols={f.symbols.length})"

end FileIndex

end LuaSymbols
