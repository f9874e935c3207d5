import LuaSymbols.Position

namespace LuaSymbols

structure Identifier where
  name : String
  range : Range
deriving DecidableEq, Repr

inductive Node where
  | chunk (body : List Node)
  | identifier (id : Identifier)
  /-- A field or method of a table; the indexer is a dot or a colon. -/
  | member (base : Node) (id : Identifier) (indexer : String) (range : Range)
  | call (base : Node) (arguments : List Node) (range : Range)
  | function (name : Option Node) (body : List Node) (isLocal : Bool) (range : Range)
  | callStatement (expression : Node) (range : Range)
  | block (kind : String) (body : List Node) (range : Range)
  | unsupported (kind : String) (range : Range)
  -- Of a kind that only a parser of the caller's own can make.
  | foreign

namespace Node

instance : Inhabited Node := ⟨.chunk []⟩

/-- The place of a node; a whole document and a foreign node have none. -/
def range? : Node → Option Range
  | .chunk _ | .foreign => none
  | .identifier id => some id.range
  | .member _ _ _ range | .call _ _ range | .function _ _ _ range | .callStatement _ range
  | .block _ _ range | .unsupported _ range => some range

/-- The names that a declared function can have: a plain name or a member. -/
def isName : Node → Bool
  | .identifier _ | .member .. => true
  | _ => false

/-- The name under which a declaration is found: of a member, the last part. -/
def declaredName? : Node → Option String
  | .identifier id | .member _ id _ _ => some id.name
  | _ => none

/-- A chain of names as it is written, such as `a.b:c`. A chain that does not start with a name
has no text. -/
def dotted : Node → String
  | .identifier id => id.name
  | .member base id indexer _ =>
    let front := base.dotted
    if front.isEmpty then "" else front ++ indexer ++ id.name
  | _ => ""

end Node

end LuaSymbols
