import LuaSymbols.ParseTree

namespace LuaSymbols

inductive Outline where
  | identifier (span : Span)
  | member (base : Outline) (id : Span) (indexer : String) (span : Span)
  | call (base : Outline) (arguments : List Outline) (span : Span)
  /-- A function; whatever stands in the place of its name is kept for the time being. -/
  | function (name : Option Outline) (body : List Outline) (isLocal : Bool) (span : Span)
  | callStatement (expression : Outline) (span : Span)
  | block (kind : String) (body : List Outline) (span : Span)
  | jump (kind : String) (span : Span)
  | unsupported (kind : String) (span : Span)

/-- All readings of one node of a parse tree: whether it is a statement or an expression depends on
where it stands. -/
structure Reading where
  label : Label
  statement : Outline
  expression : Outline
  statements : List Outline
  expressions : List Outline
  body : List Outline
  consequence : List Outline

namespace Reading

def child? (children : List Reading) (field : String) : Option Reading :=
  children.find? fun c => c.label.field == some field

def ofKind? (children : List Reading) (kind : String) : Option Reading :=
  children.find? fun c => c.label.kind == kind

def named (children : List Reading) : List Reading :=
  children.filter fun c => c.label.named

def isRemark (kind : String) : Bool := kind == "comment" || kind == "hash_bang_line"

def statementsOf (children : List Reading) : List Outline :=
  ((named children).filter fun c => !isRemark c.label.kind).map (·.statement)

def expressionsOf (children : List Reading) : List Outline :=
  ((named children).filter fun c => c.label.kind != "comment").map (·.expression)

/-- The statements of the block in a role; a block without a role will do, and so will none. -/
def bodyIn (children : List Reading) (field : String) : List Outline :=
  match (child? children field).or (ofKind? children "block") with
  | some block => block.statements
  | none => []

def alternatives (children : List Reading) : List Outline :=
  (children.filter fun c => c.label.field == some "alternative").flatMap fun c =>
    if c.label.kind == "elseif_statement" then c.consequence else c.body

/-- A call. Without a name in its role the first of several named children is called. -/
def callOf (label : Label) (children : List Reading) : Outline :=
  let arguments := match (child? children "arguments").or (ofKind? children "arguments") with
    | some list => list.expressions
    | none => []
  let callee := (child? children "name").or
    (if (named children).length > 1 then (named children).head? else none)
  let base := match callee with
    | some c => c.expression
    | none => .unsupported "missing_callee" label.span
  .call base arguments label.span

def memberOf (label : Label) (children : List Reading) (field indexer : String) : Outline :=
  match child? children "table", child? children field with
  | some table, some id => .member table.expression id.label.span indexer label.span
  | _, _ => .unsupported label.kind label.span

/-- A declared function. It is local if its kind or one of its tokens says so. -/
def functionOf (label : Label) (children : List Reading) : Outline :=
  let isLocal := label.kind == "local_function_declaration" ||
    children.any fun c => c.label.kind == "local"
  .function ((child? children "name").map (·.expression)) (bodyIn children "body") isLocal label.span

def statementOf (label : Label) (children : List Reading) : Outline :=
  match label.kind with
  | "function_declaration" | "local_function_declaration" => functionOf label children
  | "function_call" => .callStatement (callOf label children) label.span
  | "do_statement" | "while_statement" | "repeat_statement" | "for_statement" =>
    .block label.kind (bodyIn children "body") label.span
  | "if_statement" =>
    .block label.kind (bodyIn children "consequence" ++ alternatives children) label.span
  | "goto_statement" | "label_statement" => .jump label.kind label.span
  | kind => .unsupported kind label.span

/-- A node as an expression. Parentheses around one expression do not show. -/
def expressionOf (label : Label) (children : List Reading) : Outline :=
  match label.kind with
  | "identifier" => .identifier label.span
  | "function_call" => callOf label children
  | "dot_index_expression" => memberOf label children "field" "."
  | "method_index_expression" => memberOf label children "method" ":"
  | "function_definition" => .function none (bodyIn children "body") false label.span
  | "parenthesized_expression" =>
    match expressionsOf children with
    | [inner] => inner
    | _ => .unsupported label.kind label.span
  | kind => .unsupported kind label.span

def ofNode (label : Label) (children : List Reading) : Reading where
  label := label
  statement := statementOf label children
  expression := expressionOf label children
  statements := statementsOf children
  expressions := expressionsOf children
  body := bodyIn children "body"
  consequence := bodyIn children "consequence"

end Reading

namespace ParseTree

mutual

def reading : ParseTree → Reading
  | .node label children => .ofNode label (readings children)

def readings : List ParseTree → List Reading
  | [] => []
  | t :: rest => reading t :: readings rest

end

def outline (t : ParseTree) : List Outline := t.reading.statements

end ParseTree

end LuaSymbols
