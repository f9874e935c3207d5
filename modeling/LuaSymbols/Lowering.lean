import LuaSymbols.Node
import LuaSymbols.Outline
import LuaSymbols.Source
import LuaSymbols.Text.Blank

namespace LuaSymbols

def jumplessVersion : String := "5.1"

namespace Outline

def place (src : Source) (span : Span) : Except ParseError Range :=
  (src.range span).mapError .fault

def nameAt (src : Source) (span : Span) : Except ParseError Identifier := do
  return ⟨src.text span, ← place src span⟩

/-- The failure for a jump: it quotes the first word of the statement. -/
def refuseJump (src : Source) (span : Span) : ParseError :=
  match firstWord? (src.chars span) with
  | some word => .failure ⟨.jump (String.ofList word), some (src.position span.start)⟩
  | none => .fault .wordlessJump

mutual

/-- The node of an outline. Parts are placed from left to right, but the arguments of a call before
what is called, and every part before the whole. -/
def resolve (src : Source) (version : String) : Outline → Except ParseError Node
  | .identifier span => do return .identifier (← nameAt src span)
  | .member base id indexer span => do
    let base ← resolve src version base
    let id ← nameAt src id
    return .member base id indexer (← place src span)
  | .call base arguments span => do
    let arguments ← resolveAll src version arguments
    let base ← resolve src version base
    return .call base arguments (← place src span)
  | .function name body isLocal span => do
    let name ← resolveName src version name
    let body ← resolveAll src version body
    return .function name body isLocal (← place src span)
  | .callStatement expression span => do
    let expression ← resolve src version expression
    return .callStatement expression (← place src span)
  | .block kind body span => do
    let body ← resolveAll src version body
    return .block kind body (← place src span)
  | .jump kind span =>
    if version = jumplessVersion then .error (refuseJump src span)
    else do return .unsupported kind (← place src span)
  | .unsupported kind span => do return .unsupported kind (← place src span)

def resolveAll (src : Source) (version : String) : List Outline → Except ParseError (List Node)
  | [] => .ok []
  | outline :: rest => do
    let node ← resolve src version outline
    return node :: (← resolveAll src version rest)

/-- The name of a function. Only a plain name or a member is one. -/
def resolveName (src : Source) (version : String) : Option Outline → Except ParseError (Option Node)
  | none => .ok none
  | some outline => do
    let node ← resolve src version outline
    -- Anything else is resolved and then dropped, but its errors count.
    return if node.isName then some node else none

end

end Outline

namespace ParseTree

/-- The failure that a faulty tree is reported as: its first error. -/
def describeError (t : ParseTree) (src : Source) : ParseFailure :=
  match t.firstError? with
  | none => ⟨.malformed, none⟩
  | some label =>
    let cause := if label.missing then .missing label.kind else .unexpected
    ⟨cause, some (src.position label.span.start)⟩

def lower (t : ParseTree) (src : Source) (version : String) : Except ParseError Node :=
  if t.label.faulty then .error (.failure (t.describeError src))
  else .chunk <$> Outline.resolveAll src version t.outline

end ParseTree

namespace Text

/-- Parses a text through a parse tree that depends on its characters. A lone surrogate is refused
before anything else. -/
def parseWith (t : Text) (version : String) (tree? : List Char → Option ParseTree) :
    Except ParseError Node :=
  match t.firstSurrogate? with
  | some index => .error (.failure ⟨.invalidCharacter, some (t.positionOf index)⟩)
  | none =>
    match tree? t.chars with
    | none => .error (.failure ⟨.malformed, none⟩)
    | some tree => tree.lower (.ofChars t.chars) version

end Text

end LuaSymbols
