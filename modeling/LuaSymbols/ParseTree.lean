namespace LuaSymbols

/-- A place in encoded text: the byte offset, the row, and the byte column in the row. -/
structure Point where
  offset : Nat
  row : Nat
  column : Nat
deriving DecidableEq, Repr, Inhabited

/-- One character further in encoded text: a line feed starts a row, all else takes its bytes. -/
def Point.advance (p : Point) (c : Char) : Point :=
  if c = '\n' then ⟨p.offset + 1, p.row + 1, 0⟩
  else ⟨p.offset + c.utf8Size, p.row, p.column + c.utf8Size⟩

structure Span where
  start : Point
  stop : Point
deriving DecidableEq, Repr, Inhabited

structure Label where
  kind : String
  field : Option String
  /-- Whether the node stands for a rule of the grammar and not for mere punctuation. -/
  named : Bool
  missing : Bool
  faulty : Bool
  span : Span
deriving DecidableEq, Repr, Inhabited

def Label.errorKind : String := "ERROR"

/-- The node itself is an error: text outside the grammar, or a token put in. -/
def Label.isError (l : Label) : Bool := l.kind == errorKind || l.missing

inductive ParseTree where
  | node (label : Label) (children : List ParseTree)

namespace ParseTree

instance : Inhabited ParseTree := ⟨.node default []⟩

def label : ParseTree → Label
  | .node label _ => label

def children : ParseTree → List ParseTree
  | .node _ children => children

/-- A node whose error mark is the true one: it is an error itself or has one below. -/
def make (kind : String) (field : Option String) (named missing : Bool) (span : Span)
    (children : List ParseTree) : ParseTree :=
  let faulty := kind == Label.errorKind || missing || children.any fun c => c.label.faulty
  .node ⟨kind, field, named, missing, faulty, span⟩ children

def inField (t : ParseTree) (field : String) : ParseTree :=
  match t with
  | .node label children => .node { label with field := some field } children

mutual

/-- The first error at or below a node, looked for only where the marks promise one. -/
def firstError? : ParseTree → Option Label
  | .node label children => if label.isError then some label else firstErrorAmong? children

def firstErrorAmong? : List ParseTree → Option Label
  | [] => none
  | t :: rest =>
    if t.label.faulty || t.label.missing then
      match firstError? t with
      | some found => some found
      | none => firstErrorAmong? rest
    else firstErrorAmong? rest

end

end ParseTree

end LuaSymbols
