import LuaSymbols.Table
import LuaSymbols.Toml.Reader

namespace LuaSymbols.Toml

abbrev Path := List String

abbrev Entries := List (String × Value)

def isBareKeyChar (c : Char) : Bool := c.isAlphanum || c == '-' || c == '_'

/-- One part of a key: bare, or a text on one line. -/
def keyPart? : List Char → Option (String × List Char)
  | '"' :: rest => (basicText? false (rest.length + 1) #[] rest).map fun (t, r) => (String.ofList t, r)
  | '\'' :: rest => (literalText? rest).map fun (t, r) => (String.ofList t, r)
  | cs =>
    let part := cs.takeWhile isBareKeyChar
    if part.isEmpty then none else some (String.ofList part, cs.dropWhile isBareKeyChar)

def keyAfter? : Nat → Array String → List Char → Option (Path × List Char)
  | 0, _, _ => none
  | fuel + 1, done, cs =>
    match skipWhite cs with
    | '.' :: rest =>
      match keyPart? (skipWhite rest) with
      | some (part, rest) => keyAfter? fuel (done.push part) rest
      | none => none
    | rest => some (done.toList, rest)

def key? (cs : List Char) : Option (Path × List Char) := do
  let (part, rest) ← keyPart? cs
  keyAfter? (rest.length + 1) #[part] rest

/-- Changes the table at a path. Tables that are missing are made; behind a list of tables its last one
is meant, if lists may be entered. -/
def atPath? (enterLists : Bool) (change : Entries → Option Entries) : Path → Entries → Option Entries
  | [], t => change t
  | key :: rest, t =>
    match Table.get? t key with
    | none => (atPath? enterLists change rest []).map fun inner => Table.put key (.table inner) t
    | some (.table inner) =>
      (atPath? enterLists change rest inner).map fun inner => Table.put key (.table inner) t
    | some (.array items) =>
      match enterLists, items.getLast? with
      | true, some (.table inner) =>
        (atPath? enterLists change rest inner).map fun inner =>
          Table.put key (.array (items.dropLast ++ [.table inner])) t
      | _, _ => none
    | some _ => none

def addNew? (key : String) (value : Value) (t : Entries) : Option Entries :=
  if Table.has t key then none else some (Table.put key value t)

def appendTable? (key : String) (t : Entries) : Option Entries :=
  match Table.get? t key with
  | none => some (Table.put key (.array [.table []]) t)
  | some (.array items) => some (Table.put key (.array (items ++ [.table []])) t)
  | some _ => none

def isContainer : Value → Bool
  | .array _ | .table _ => true
  | _ => false

def covers (paths : List Path) (path : Path) : Bool := paths.any fun p => p.isPrefixOf path

def skipGaps? : Nat → List Char → Option (List Char)
  | 0, _ => none
  | fuel + 1, cs =>
    match cs.dropWhile fun c => isWhite c || c == '\n' with
    | '#' :: rest =>
      match skipComment? ('#' :: rest) with
      | some rest => skipGaps? fuel rest
      | none => none
    | rest => some rest

def skipGaps (cs : List Char) : Except ReadError (List Char) :=
  match skipGaps? (cs.length + 1) cs with
  | some rest => .ok rest
  | none => .error .malformed

def orMalformed {α : Type} : Option α → Except ReadError α
  | some x => .ok x
  | none => .error .malformed

mutual

/-- A value of any form. Of three steps down one takes a character at least, so fuel for three
steps for each character is enough. -/
def value : Nat → List Char → Except ReadError (Value × List Char)
  | 0, _ => .error .malformed
  | fuel + 1, cs =>
    match cs with
    | '[' :: rest => do
      let rest ← skipGaps rest
      match rest with
      | ']' :: rest => return (.array [], rest)
      | _ => items fuel #[] rest
    | '\x7b' :: rest =>
      match skipWhite rest with
      | '\x7d' :: rest => return (.table [], rest)
      | rest => inlineTable fuel [] [] rest
    | _ => scalar cs

def items : Nat → Array Value → List Char → Except ReadError (Value × List Char)
  | 0, _, _ => .error .malformed
  | fuel + 1, done, cs => do
    let (item, rest) ← value fuel cs
    let done := done.push item
    match ← skipGaps rest with
    | ']' :: rest => return (.array done.toList, rest)
    | ',' :: rest =>
      match ← skipGaps rest with
      | ']' :: rest => return (.array done.toList, rest)
      | rest => items fuel done rest
    | _ => .error .malformed

def keyValue : Nat → List Char → Except ReadError ((Path × Value) × List Char)
  | 0, _ => .error .malformed
  | fuel + 1, cs => do
    let (key, rest) ← orMalformed (key? cs)
    let rest ← orMalformed (expect? '=' rest)
    let (v, rest) ← value fuel (skipWhite rest)
    return ((key, v), rest)

def inlineTable : Nat → List Path → Entries → List Char → Except ReadError (Value × List Char)
  | 0, _, _, _ => .error .malformed
  | fuel + 1, frozen, t, cs => do
    let ((key, v), rest) ← keyValue fuel cs
    if covers frozen key then .error .malformed
    else
      let t ← orMalformed (atPath? false (addNew? (key.getLast?.getD "") v) key.dropLast t)
      match skipWhite rest with
      | '\x7d' :: rest => return (.table t, rest)
      | ',' :: rest => inlineTable fuel (if isContainer v then key :: frozen else frozen) t (skipWhite rest)
      | _ => .error .malformed

end

structure Draft where
  entries : Entries
  header : Path
  /-- Lists and tables that were written as values: nothing below them can change. -/
  frozen : List Path
  closed : List Path
  opening : List Path

namespace Draft

def empty : Draft := ⟨[], [], [], [], []⟩

def closeOpening (d : Draft) : Draft := { d with closed := d.opening ++ d.closed, opening := [] }

def openTable? (d : Draft) (key : Path) : Option Draft := do
  if d.closed.contains key || covers d.frozen key then none
  let entries ← atPath? true some key d.entries
  return { d with entries, header := key, closed := key :: d.closed }

/-- A header of the next table of a list. All below the list may be opened anew. -/
def openItem? (d : Draft) (key : Path) : Option Draft := do
  if covers d.frozen key then none
  let kept (paths : List Path) := paths.filter fun p => !key.isPrefixOf p
  let entries ← atPath? true (appendTable? (key.getLast?.getD "")) key.dropLast d.entries
  return { d with entries, header := key, frozen := kept d.frozen, closed := key :: kept d.closed }

def passed (d : Draft) (key : Path) : List Path :=
  (List.range (key.length - 1)).map fun i => d.header ++ key.take (i + 1)

def add? (d : Draft) (key : Path) (v : Value) : Option Draft := do
  let passed := d.passed key
  if passed.any d.closed.contains then none
  let parent := d.header ++ key.dropLast
  if covers d.frozen parent then none
  let entries ← atPath? true (addNew? (key.getLast?.getD "") v) parent d.entries
  let frozen := if isContainer v then (d.header ++ key) :: d.frozen else d.frozen
  return { d with entries, frozen, opening := passed ++ d.opening }

end Draft

def header (d : Draft) (cs : List Char) : Except ReadError (Draft × List Char) :=
  let d := d.closeOpening
  match cs with
  | '[' :: '[' :: rest => do
    let (key, rest) ← orMalformed (key? (skipWhite rest))
    let d ← orMalformed (d.openItem? key)
    match rest with
    | ']' :: ']' :: rest => return (d, rest)
    | _ => .error .malformed
  | _ => do
    let (key, rest) ← orMalformed (key? (skipWhite (cs.drop 1)))
    let d ← orMalformed (d.openTable? key)
    match rest with
    | ']' :: rest => return (d, rest)
    | _ => .error .malformed

def statement (d : Draft) (cs : List Char) : Except ReadError (Draft × List Char) :=
  match cs with
  | '[' :: _ => header d cs
  | '#' :: _ => .ok (d, cs)
  | _ => do
    let ((key, v), rest) ← keyValue (3 * (cs.length + 1)) cs
    let d ← orMalformed (d.add? key v)
    return (d, rest)

/-- The lines of a document. Every line takes a character at least. -/
def lines : Nat → Draft → List Char → Except ReadError Draft
  | 0, _, _ => .error .malformed
  | fuel + 1, d, cs =>
    match skipWhite cs with
    | [] => .ok d
    | '\n' :: rest => lines fuel d rest
    | cs => do
      let (d, rest) ← statement d cs
      let rest ← orMalformed (skipComment? (skipWhite rest))
      match rest with
      | [] => return d
      | '\n' :: rest => lines fuel d rest
      | _ => .error .malformed

def parse (cs : List Char) : Except ReadError Entries :=
  (lines (cs.length + 1) .empty cs).map (·.entries)

end LuaSymbols.Toml
