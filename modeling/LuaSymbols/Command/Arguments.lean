import LuaSymbols.Number.Numeral

namespace LuaSymbols.Command

inductive Request where
  | version
  | scan (root : Option String) (verbose : Bool)
  | symbols (file : String) (verbose : Bool)
  | definition (file : String) (line column : Nat) (root : Option String) (verbose : Bool)
deriving DecidableEq, Repr

structure Options where
  takesVerbose : Bool
  takesRoot : Bool

structure Parsed where
  verbose : Bool
  root : Option String
  arguments : Array String

/-- Reads the letters of short options that are written together. The letter of an option with a value
takes the rest of the word, or the next word. -/
def shortOptions? (o : Options) (p : Parsed) : List Char → List String → Option (Parsed × List String)
  | [], words => some (p, words)
  | 'v' :: letters, words =>
    if o.takesVerbose then shortOptions? o { p with verbose := true } letters words else none
  | 'r' :: letters, words =>
    if !o.takesRoot then none
    else if !letters.isEmpty then some ({ p with root := some (String.ofList letters) }, words)
    else
      match words with
      | value :: words => some ({ p with root := some value }, words)
      | [] => none
  | _ :: _, _ => none

/-- Reads the words of a command line. Of an option that is given twice the last value counts. -/
def words? (o : Options) : Nat → Parsed → List String → Option Parsed
  | 0, _, _ => none
  | _ + 1, p, [] => some p
  | fuel + 1, p, word :: rest =>
    match word.toList with
    | '-' :: '-' :: [] => some { p with arguments := p.arguments ++ rest }
    | '-' :: '-' :: name =>
      if name == "verbose".toList && o.takesVerbose then words? o fuel { p with verbose := true } rest
      else if name == "root".toList && o.takesRoot then
        match rest with
        | value :: rest => words? o fuel { p with root := some value } rest
        | [] => none
      else if "root=".toList.isPrefixOf name && o.takesRoot then
        words? o fuel { p with root := some (String.ofList (name.drop 5)) } rest
      else none
    | '-' :: c :: letters =>
      match shortOptions? o p (c :: letters) rest with
      | some (p, rest) => words? o fuel p rest
      | none => none
    | _ => words? o fuel { p with arguments := p.arguments.push word } rest

def parse? (o : Options) (words : List String) : Option Parsed :=
  words? o (words.length + 1) ⟨false, none, #[]⟩ words

/-- A count in an argument: a numeral of zero or more. -/
def count? (word : String) : Option Nat := do
  let n ← Numeral.integer? word.toList
  if 0 ≤ n then some n.toNat else none

namespace Request

def ofCommand? : List String → Option Request
  | "version" :: words => do
    let p ← parse? ⟨false, false⟩ words
    match p.arguments.toList with
    | [] => some .version
    | _ => none
  | "scan" :: words => do
    let p ← parse? ⟨true, false⟩ words
    match p.arguments.toList with
    | [] => some (.scan none p.verbose)
    | [root] => some (.scan (some root) p.verbose)
    | _ => none
  | "symbols" :: words => do
    let p ← parse? ⟨true, false⟩ words
    match p.arguments.toList with
    | [file] => some (.symbols file p.verbose)
    | _ => none
  | "definition" :: words => do
    let p ← parse? ⟨true, true⟩ words
    match p.arguments.toList with
    | [file, line, column] => some (.definition file (← count? line) (← count? column) p.root p.verbose)
    | _ => none
  | _ => none

/-- The request of a command line, if the command line is a proper one. Two dashes may stand before
the command. -/
def ofWords? : List String → Option Request
  | "--" :: words => ofCommand? words
  | words => ofCommand? words

def mapPaths {m : Type → Type} [Monad m] (respell : String → m String) : Request → m Request
  | .version => return .version
  | .scan root verbose => return .scan (some (← respell (root.getD "."))) verbose
  | .symbols file verbose => return .symbols (← respell file) verbose
  | .definition file line column root verbose =>
    return .definition (← respell file) line column (some (← respell (root.getD "."))) verbose

end Request

end LuaSymbols.Command
