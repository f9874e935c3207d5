import LuaSymbols.ParseTree
import LuaSymbols.Lua.Token

namespace LuaSymbols.Lua

abbrev Parse := StateT (List Token) Option

namespace Parse

def next : Parse (Option TokenKind) := do
  return (← get).head?.map (·.kind)

def atWord (text : String) : Parse Bool := do
  return (← next) == some (.word text)

def atSign (text : String) : Parse Bool := do
  return (← next) == some (.sign text)

end Parse

def leaf (kind : String) (named : Bool) (span : Span) : ParseTree :=
  .make kind none named false span []

/-- The leaf of a token. Signs and most words are mere punctuation. -/
def Token.leaf (t : Token) : ParseTree :=
  match t.kind with
  | .name => Lua.leaf "identifier" true t.span
  | .number => Lua.leaf "number" true t.span
  | .string => Lua.leaf "string" true t.span
  | .sign text => Lua.leaf text false t.span
  | .word text => Lua.leaf text (["nil", "true", "false"].contains text) t.span

def branch (kind : String) (children : List ParseTree) : ParseTree :=
  let start := (children.head?.map fun c => c.label.span.start).getD default
  let stop := (children.getLast?.map fun c => c.label.span.stop).getD default
  .make kind none true false ⟨start, stop⟩ children

/-- The statements of a block in a role; an empty block leaves no node. -/
def blockIn (field : String) (statements : List ParseTree) : List ParseTree :=
  if statements.isEmpty then [] else [(branch "block" statements).inField field]

namespace Parse

def token : Parse ParseTree := do
  match ← get with
  | [] => failure
  | t :: rest =>
    set rest
    return t.leaf

def expect (kind : TokenKind) : Parse ParseTree := do
  if (← next) == some kind then token else failure

def word (text : String) : Parse ParseTree := expect (.word text)

def sign (text : String) : Parse ParseTree := expect (.sign text)

def name : Parse ParseTree := expect .name

end Parse

def binaryPower? : TokenKind → Option (Nat × Nat)
  -- Where the power for the right operand is less than the other, operations nest to the right.
  | .word "or" => some (1, 1)
  | .word "and" => some (2, 2)
  | .sign "==" | .sign "~=" | .sign "<" | .sign "<=" | .sign ">" | .sign ">=" => some (3, 3)
  | .sign "|" => some (4, 4)
  | .sign "~" => some (5, 5)
  | .sign "&" => some (6, 6)
  | .sign "<<" | .sign ">>" => some (7, 7)
  | .sign ".." => some (9, 8)
  | .sign "+" | .sign "-" => some (10, 10)
  | .sign "*" | .sign "/" | .sign "//" | .sign "%" => some (11, 11)
  | .sign "^" => some (14, 13)
  | _ => none

def unaryPower : Nat := 12

def isUnary : TokenKind → Bool
  | .word "not" | .sign "-" | .sign "#" | .sign "~" => true
  | _ => false

def isVariable (t : ParseTree) : Bool :=
  ["identifier", "dot_index_expression", "bracket_index_expression"].contains t.label.kind

def endsBlock : Option TokenKind → Bool
  | none => true
  | some kind => [.word "end", .word "else", .word "elseif", .word "until"].contains kind

def namesAfter : Nat → Array ParseTree → Parse (List ParseTree)
  | 0, _ => failure
  | fuel + 1, done => do
    if ← Parse.atSign "," then
      let comma ← Parse.sign ","
      let name ← Parse.name
      namesAfter fuel (done.push comma |>.push name)
    else return done.toList

/-- Names with commas between them, each perhaps with an attribute in angle brackets. -/
def attributedNames : Nat → Array ParseTree → Parse (List ParseTree)
  | 0, _ => failure
  | fuel + 1, done => do
    let name ← Parse.name
    let done := done.push name
    let done ← if ← Parse.atSign "<" then do
        let opening ← Parse.sign "<"
        let tag ← Parse.name
        let closing ← Parse.sign ">"
        pure (done.push (branch "attribute" [opening, tag, closing]))
      else pure done
    if ← Parse.atSign "," then
      let comma ← Parse.sign ","
      attributedNames fuel (done.push comma)
    else return done.toList

/-- The parameters of a function after its opening parenthesis: names, and perhaps dots at the end. -/
def parametersAfter : Nat → Array ParseTree → Parse (List ParseTree)
  | 0, _ => failure
  | fuel + 1, done => do
    let parameter ← if ← Parse.atSign "..." then
        pure (branch "vararg_expression" [← Parse.sign "..."])
      else Parse.name
    let done := done.push parameter
    if parameter.label.kind == "identifier" && (← Parse.atSign ",") then
      let comma ← Parse.sign ","
      parametersAfter fuel (done.push comma)
    else return done.toList

/-- The name of a declared function: names with dots between them, and perhaps a method at the end. -/
def functionNameAfter : Nat → ParseTree → Parse ParseTree
  | 0, _ => failure
  | fuel + 1, base => do
    if ← Parse.atSign "." then
      let dot ← Parse.sign "."
      let field ← Parse.name
      functionNameAfter fuel
        (branch "dot_index_expression" [base.inField "table", dot, field.inField "field"])
    else if ← Parse.atSign ":" then
      let colon ← Parse.sign ":"
      let method ← Parse.name
      return branch "method_index_expression" [base.inField "table", colon, method.inField "method"]
    else return base

mutual

def expression : Nat → Nat → Parse ParseTree
  | 0, _ => failure
  | fuel + 1, limit => do
    match ← Parse.next with
    | none => failure
    | some kind =>
      let first ← if isUnary kind then do
          let operator ← Parse.token
          let operand ← expression fuel unaryPower
          pure (branch "unary_expression" [operator, operand])
        else simpleExpression fuel
      operations fuel limit first

def operations : Nat → Nat → ParseTree → Parse ParseTree
  | 0, _, _ => failure
  | fuel + 1, limit, left => do
    match (← Parse.next).bind binaryPower? with
    | none => return left
    | some (leftPower, rightPower) =>
      if leftPower > limit then
        let operator ← Parse.token
        let right ← expression fuel rightPower
        operations fuel limit (branch "binary_expression" [left, operator, right])
      else return left

def simpleExpression : Nat → Parse ParseTree
  | 0 => failure
  | fuel + 1 => do
    match ← Parse.next with
    | some .number | some .string | some (.word "nil") | some (.word "true") | some (.word "false") =>
      Parse.token
    | some (.sign "...") => return branch "vararg_expression" [← Parse.token]
    | some (.sign "\x7b") => tableConstructor fuel
    | some (.word "function") =>
      let keyword ← Parse.token
      return branch "function_definition" (keyword :: (← functionBody fuel))
    | _ => suffixedExpression fuel

/-- A name or a parenthesised expression, with all that is selected from it or called on it. -/
def suffixedExpression : Nat → Parse ParseTree
  | 0 => failure
  | fuel + 1 => do
    match ← Parse.next with
    | some .name => suffixes fuel (← Parse.token)
    | some (.sign "(") =>
      let opening ← Parse.token
      let inner ← expression fuel 0
      let closing ← Parse.sign ")"
      suffixes fuel (branch "parenthesized_expression" [opening, inner, closing])
    | _ => failure

def suffixes : Nat → ParseTree → Parse ParseTree
  | 0, _ => failure
  | fuel + 1, base => do
    match ← Parse.next with
    | some (.sign ".") =>
      let dot ← Parse.token
      let field ← Parse.name
      suffixes fuel (branch "dot_index_expression"
        [base.inField "table", dot, field.inField "field"])
    | some (.sign "[") =>
      let opening ← Parse.token
      let key ← expression fuel 0
      let closing ← Parse.sign "]"
      suffixes fuel (branch "bracket_index_expression"
        [base.inField "table", opening, key.inField "field", closing])
    | some (.sign ":") =>
      let colon ← Parse.token
      let method ← Parse.name
      let callee := branch "method_index_expression"
        [base.inField "table", colon, method.inField "method"]
      let arguments ← callArguments fuel
      suffixes fuel (branch "function_call"
        [callee.inField "name", arguments.inField "arguments"])
    | some (.sign "(") | some (.sign "\x7b") | some .string =>
      let arguments ← callArguments fuel
      suffixes fuel (branch "function_call"
        [base.inField "name", arguments.inField "arguments"])
    | _ => return base

/-- The arguments of a call: a list in parentheses, one table or one string. -/
def callArguments : Nat → Parse ParseTree
  | 0 => failure
  | fuel + 1 => do
    match ← Parse.next with
    | some .string => return branch "arguments" [← Parse.token]
    | some (.sign "\x7b") => return branch "arguments" [← tableConstructor fuel]
    | some (.sign "(") =>
      let opening ← Parse.token
      let list ← if ← Parse.atSign ")" then pure [] else expressions fuel #[]
      let closing ← Parse.sign ")"
      return branch "arguments" (opening :: list ++ [closing])
    | _ => failure

def expressions : Nat → Array ParseTree → Parse (List ParseTree)
  | 0, _ => failure
  | fuel + 1, done => do
    let first ← expression fuel 0
    let done := done.push first
    if ← Parse.atSign "," then
      let comma ← Parse.token
      expressions fuel (done.push comma)
    else return done.toList

def tableConstructor : Nat → Parse ParseTree
  | 0 => failure
  | fuel + 1 => do
    let opening ← Parse.sign "\x7b"
    let fields ← tableFields fuel #[]
    let closing ← Parse.sign "\x7d"
    return branch "table_constructor" (opening :: fields ++ [closing])

/-- The fields of a table. A comma or a semicolon may also follow the last one. -/
def tableFields : Nat → Array ParseTree → Parse (List ParseTree)
  | 0, _ => failure
  | fuel + 1, done => do
    if ← Parse.atSign "\x7d" then return done.toList
    let done := done.push (branch "field" (← tableField fuel))
    if (← Parse.atSign ",") || (← Parse.atSign ";") then
      let separator ← Parse.token
      tableFields fuel (done.push separator)
    else return done.toList

/-- One field: a value with a key in brackets, with a name, or alone. -/
def tableField : Nat → Parse (List ParseTree)
  | 0 => failure
  | fuel + 1 => do
    let kinds : List TokenKind := (← get).take 2 |>.map (·.kind)
    match kinds with
    | .sign "[" :: _ =>
      let opening ← Parse.token
      let key ← expression fuel 0
      let closing ← Parse.sign "]"
      let equals ← Parse.sign "="
      let value ← expression fuel 0
      return [opening, key.inField "name", closing, equals, value.inField "value"]
    | .name :: .sign "=" :: _ =>
      let name ← Parse.token
      let equals ← Parse.token
      let value ← expression fuel 0
      return [name.inField "name", equals, value.inField "value"]
    | _ => return [(← expression fuel 0).inField "value"]

def functionBody : Nat → Parse (List ParseTree)
  | 0 => failure
  | fuel + 1 => do
    let opening ← Parse.sign "("
    let list ← if ← Parse.atSign ")" then pure [] else parametersAfter fuel #[]
    let closing ← Parse.sign ")"
    let statements ← block fuel #[]
    let final ← Parse.word "end"
    let parameters := (branch "parameters" (opening :: list ++ [closing])).inField "parameters"
    return parameters :: blockIn "body" statements ++ [final]

/-- The statements of a block. Nothing may follow a return. -/
def block : Nat → Array ParseTree → Parse (List ParseTree)
  | 0, _ => failure
  | fuel + 1, done => do
    let next ← Parse.next
    if endsBlock next then return done.toList
    else if next == some (.word "return") then
      return (done.push (← returnStatement fuel)).toList
    else
      let statement ← statement fuel
      block fuel (done.push statement)

def returnStatement : Nat → Parse ParseTree
  | 0 => failure
  | fuel + 1 => do
    let keyword ← Parse.word "return"
    let values ← if endsBlock (← Parse.next) || (← Parse.atSign ";") then pure []
      else expressions fuel #[]
    let final ← if ← Parse.atSign ";" then pure [← Parse.token] else pure []
    return branch "return_statement" (keyword :: values ++ final)

def statement : Nat → Parse ParseTree
  | 0 => failure
  | fuel + 1 => do
    match ← Parse.next with
    | some (.sign ";") => return branch "empty_statement" [← Parse.token]
    | some (.sign "::") =>
      let opening ← Parse.token
      let name ← Parse.name
      let closing ← Parse.sign "::"
      return branch "label_statement" [opening, name, closing]
    | some (.word "break") => return branch "break_statement" [← Parse.token]
    | some (.word "goto") =>
      let keyword ← Parse.token
      return branch "goto_statement" [keyword, ← Parse.name]
    | some (.word "do") =>
      let keyword ← Parse.token
      let statements ← block fuel #[]
      let final ← Parse.word "end"
      return branch "do_statement" (keyword :: blockIn "body" statements ++ [final])
    | some (.word "while") =>
      let keyword ← Parse.token
      let condition ← expression fuel 0
      let opening ← Parse.word "do"
      let statements ← block fuel #[]
      let final ← Parse.word "end"
      return branch "while_statement" (keyword :: condition.inField "condition" :: opening ::
        blockIn "body" statements ++ [final])
    | some (.word "repeat") =>
      let keyword ← Parse.token
      let statements ← block fuel #[]
      let closing ← Parse.word "until"
      let condition ← expression fuel 0
      return branch "repeat_statement" (keyword :: blockIn "body" statements ++
        [closing, condition.inField "condition"])
    | some (.word "if") =>
      let keyword ← Parse.token
      let condition ← expression fuel 0
      let opening ← Parse.word "then"
      let statements ← block fuel #[]
      let others ← alternatives fuel #[]
      let final ← Parse.word "end"
      return branch "if_statement" (keyword :: condition.inField "condition" :: opening ::
        blockIn "consequence" statements ++ others ++ [final])
    | some (.word "for") =>
      let keyword ← Parse.token
      let clause ← forClause fuel
      let opening ← Parse.word "do"
      let statements ← block fuel #[]
      let final ← Parse.word "end"
      return branch "for_statement" (keyword :: clause.inField "clause" :: opening ::
        blockIn "body" statements ++ [final])
    | some (.word "function") =>
      let keyword ← Parse.token
      let name ← functionNameAfter fuel (← Parse.name)
      let body ← functionBody fuel
      return branch "function_declaration" (keyword :: name.inField "name" :: body)
    | some (.word "local") =>
      let keyword ← Parse.token
      if ← Parse.atWord "function" then
        let function ← Parse.token
        let name ← Parse.name
        let body ← functionBody fuel
        return branch "function_declaration" (keyword :: function :: name.inField "name" :: body)
      else
        let names ← attributedNames fuel #[]
        let values ← if ← Parse.atSign "=" then
            pure ((← Parse.token) :: (← expressions fuel #[]))
          else pure []
        return branch "variable_declaration" (keyword :: names ++ values)
    | _ =>
      let first ← suffixedExpression fuel
      if first.label.kind == "function_call" && !(← Parse.atSign ",") && !(← Parse.atSign "=") then
        return first
      else
        let targets ← assignmentTargets fuel #[first]
        let equals ← Parse.sign "="
        let values ← expressions fuel #[]
        return branch "assignment_statement" (targets ++ equals :: values)

/-- The left side of an assignment, its last target read but not yet judged. -/
def assignmentTargets : Nat → Array ParseTree → Parse (List ParseTree)
  | 0, _ => failure
  | fuel + 1, done => do
    if !((done.back?.map isVariable).getD false) then failure
    else if ← Parse.atSign "," then
      let comma ← Parse.token
      let target ← suffixedExpression fuel
      assignmentTargets fuel (done.push comma |>.push target)
    else return done.toList

def alternatives : Nat → Array ParseTree → Parse (List ParseTree)
  | 0, _ => failure
  | fuel + 1, done => do
    if ← Parse.atWord "elseif" then
      let keyword ← Parse.token
      let condition ← expression fuel 0
      let opening ← Parse.word "then"
      let statements ← block fuel #[]
      let clause := branch "elseif_statement" (keyword :: condition.inField "condition" ::
        opening :: blockIn "consequence" statements)
      alternatives fuel (done.push (clause.inField "alternative"))
    else if ← Parse.atWord "else" then
      let keyword ← Parse.token
      let statements ← block fuel #[]
      let clause := branch "else_statement" (keyword :: blockIn "body" statements)
      return (done.push (clause.inField "alternative")).toList
    else return done.toList

/-- The head of a loop: bounds for one variable, or names in a list of expressions. -/
def forClause : Nat → Parse ParseTree
  | 0 => failure
  | fuel + 1 => do
    let first ← Parse.name
    if ← Parse.atSign "=" then
      let equals ← Parse.token
      let start ← expression fuel 0
      let comma ← Parse.sign ","
      let stop ← expression fuel 0
      let step ← if ← Parse.atSign "," then
          pure [← Parse.token, ← expression fuel 0]
        else pure []
      return branch "for_numeric_clause" (first :: equals :: start :: comma :: stop :: step)
    else
      let names ← namesAfter fuel #[first]
      let keyword ← Parse.word "in"
      let values ← expressions fuel #[]
      return branch "for_generic_clause" (names ++ keyword :: values)

end

def parseTree? (cs : List Char) : Option ParseTree := do
  let tokens ← tokens? cs
  let (statements, rest) ← (block (16 * (tokens.size + 1)) #[]).run tokens.toList
  if rest.isEmpty then some (branch "chunk" statements) else none

end LuaSymbols.Lua
