import LuaSymbols.Position

namespace LuaSymbols

inductive Cause where
  | invalidCharacter
  | malformed
  | unexpected
  | missing (kind : String)
  | jump (word : String)
  | reported (message : String)
deriving DecidableEq, Repr

structure ParseFailure where
  cause : Cause
  position : Option Position
deriving DecidableEq, Repr

namespace ParseFailure

def message (f : ParseFailure) : String :=
  match f.cause with
  | .invalidCharacter => "Invalid character in source"
  | .malformed => "Syntax error"
  | .unexpected => "Unexpected syntax"
  | .missing kind => s!"Missing '{kind}'"
  | .jump word => s!"'{word}' requires Lua 5.2 or later"
  | .reported message => message

def text (f : ParseFailure) : String :=
  match f.position with
  | none => f.message
  | some p => s!"{f.message} at {p.short}"

end ParseFailure

/-- A breach of the rules between the parts of the index. -/
inductive Fault where
  | invertedRange (start stop : Position)
  | wordlessJump
  | foreignNode
  | unprintable (markup : String)
deriving DecidableEq, Repr

def Fault.message : Fault → String
  | .invertedRange start stop =>
    s!"Range end {stop.describe} precedes start {start.describe}"
  | .wordlessJump => "jump statement without text"
  | .foreignNode => "node of an unknown kind"
  | .unprintable markup => s!"line with broken markup: {markup}"

/-- Why parsing gave no tree: the text is bad, or a rule was broken. -/
inductive ParseError where
  | failure (f : ParseFailure)
  | fault (f : Fault)
deriving DecidableEq, Repr

def Range.between (start stop : Position) : Except Fault Range :=
  match Range.ofPositions? start stop with
  | some r => .ok r
  | none => .error (.invertedRange start stop)

end LuaSymbols
