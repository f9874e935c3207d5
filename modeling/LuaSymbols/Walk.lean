import LuaSymbols.Failure
import LuaSymbols.Node

namespace LuaSymbols

structure Occurrence where
  name : String
  base : String
  range : Range
deriving DecidableEq, Repr

inductive SymbolKind where
  | function
deriving DecidableEq, Repr

def SymbolKind.label : SymbolKind → String
  | .function => "function"

structure Symbol where
  name : String
  kind : SymbolKind
  range : Range
  container : String
deriving DecidableEq, Repr

/-- One node reached by the walk, below the functions that enclose it, outermost first. -/
structure Visit where
  node : Node
  ancestors : List Node

structure Findings where
  occurrences : Array Occurrence
  symbols : Array Symbol
  visits : Array Visit

namespace Findings

def empty : Findings := ⟨#[], #[], #[]⟩

def mention (f : Findings) (id : Identifier) (base : String) : Findings :=
  { f with occurrences := f.occurrences.push ⟨id.name, base, id.range⟩ }

def declare (f : Findings) (name : String) (range : Range) (container : String) : Findings :=
  { f with symbols := f.symbols.push ⟨name, .function, range, container⟩ }

def visit (f : Findings) (node : Node) (ancestors : List Node) : Findings :=
  { f with visits := f.visits.push ⟨node, ancestors⟩ }

end Findings

namespace Node

mutual

/-- Adds what a node and all below it mention and declare. A foreign node stops the walk. -/
def collect (container : String) (ancestors : List Node) (found : Findings) :
    Node → Except Fault Findings
  | .identifier id =>
    .ok ((found.visit (.identifier id) ancestors).mention id "")
  -- The chain in front of the name is a text, and the walk does not go into it.
  | .member base id indexer range =>
    .ok ((found.visit (.member base id indexer range) ancestors).mention id base.dotted)
  | .function name body isLocal range =>
    let self := Node.function name body isLocal range
    let found := found.visit self ancestors
    -- The name is declared and not mentioned.
    let found := match name.bind declaredName? with
      | some declared => found.declare declared range container
      | none => found
    collectAll container (ancestors ++ [self]) found body
  | .callStatement expression range =>
    collect container ancestors (found.visit (.callStatement expression range) ancestors) expression
  | .call base arguments range => do
    let found ← collect container ancestors (found.visit (.call base arguments range) ancestors) base
    collectAll container ancestors found arguments
  | .chunk body => collectAll container ancestors (found.visit (.chunk body) ancestors) body
  | .block kind body range =>
    collectAll container ancestors (found.visit (.block kind body range) ancestors) body
  | .unsupported kind range => .ok (found.visit (.unsupported kind range) ancestors)
  | .foreign => .error .foreignNode

def collectAll (container : String) (ancestors : List Node) (found : Findings) :
    List Node → Except Fault Findings
  | [] => .ok found
  | node :: rest => do
    let found ← collect container ancestors found node
    collectAll container ancestors found rest

end

def walk (node : Node) (container : String) : Except Fault Findings :=
  node.collect container [] .empty

end Node

end LuaSymbols
