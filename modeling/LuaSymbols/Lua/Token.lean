import LuaSymbols.ParseTree
import LuaSymbols.Text.Blank

namespace LuaSymbols.Lua

inductive TokenKind where
  | name
  | word (text : String)
  | sign (text : String)
  | number
  | string
deriving DecidableEq, Repr

structure Token where
  kind : TokenKind
  span : Span
deriving Repr

inductive Piece where
  | gap
  | token (kind : TokenKind)

def reservedWords : List String :=
  ["and", "break", "do", "else", "elseif", "end", "false", "for", "function", "goto", "if", "in",
   "local", "nil", "not", "or", "repeat", "return", "then", "true", "until", "while"]

def signs : List String :=
  -- The first sign that fits is taken, so each comes before those that it starts with.
  ["...", "..", "==", "~=", "<=", "<<", ">=", ">>", "//", "::", ".", "=", "~", "<", ">", "/", ":",
   "+", "-", "*", "%", "^", "#", "&", "|", "(", ")", "\x7b", "\x7d", "[", "]", ";", ","]

def isSpace (c : Char) : Bool :=
  c == ' ' || (0x09 ≤ c.toNat && c.toNat ≤ 0x0D)

/-- Letters: the ASCII ones, the underscore, and all beyond ASCII but white space and controls. -/
def isLetter (c : Char) : Bool :=
  c.isAlpha || c == '_' || (0xA0 ≤ c.toNat && !isBlank c)

def isNamePart (c : Char) : Bool := isLetter c || c.isDigit

def isHexDigit (c : Char) : Bool :=
  c.isDigit || ('a' ≤ c && c ≤ 'f') || ('A' ≤ c && c ≤ 'F')

/-- The level of a long bracket, given what follows its first square bracket. -/
def longBracket? (cs : List Char) : Option Nat :=
  let level := (cs.takeWhile (· == '=')).length
  if (cs.drop level).head? == some '[' then some level else none

/-- How many characters there are up to the end of the closing long bracket. -/
def longBracketEnd? (closing : List Char) : List Char → Nat → Option Nat
  | [], _ => none
  | c :: rest, taken =>
    if closing.isPrefixOf (c :: rest) then some (taken + closing.length)
    else longBracketEnd? closing rest (taken + 1)

/-- The number of characters after the first square bracket of a long bracket up to its end. -/
def longText? (level : Nat) (cs : List Char) : Option Nat :=
  longBracketEnd? (']' :: List.replicate level '=' ++ [']']) (cs.drop (level + 1)) (level + 1)

/-- How many characters there are up to the end of a quoted string. What a backslash escapes is
passed over. -/
def quotedEnd? (quote : Char) : List Char → Nat → Option Nat
  | [], _ => none
  | '\\' :: _ :: rest, taken => quotedEnd? quote rest (taken + 2)
  | c :: rest, taken =>
    if c == quote then some (taken + 1)
    else if c == '\n' then none
    else quotedEnd? quote rest (taken + 1)

/-- Everything that could belong to a numeral: letters, digits, points, and a sign right after a mark
of the exponent. -/
def numeralLength (exponent : Char) : List Char → Nat → Nat
  | c :: sign :: rest, taken =>
    if c.toLower == exponent && (sign == '+' || sign == '-') then
      numeralLength exponent rest (taken + 2)
    else if isNamePart c || c == '.' then numeralLength exponent (sign :: rest) (taken + 1)
    else taken
  | [c], taken => if isNamePart c || c == '.' then taken + 1 else taken
  | [], taken => taken

/-- An exponent: its mark, an optional sign, and at least one digit; or nothing at all. -/
def isExponent (mark : Char) : List Char → Bool
  | [] => true
  | c :: rest =>
    let digits := match rest with
      | '+' :: r | '-' :: r => r
      | r => r
    c.toLower == mark && !digits.isEmpty && digits.all Char.isDigit

/-- Digits with at most one point among them, at least one digit, then an exponent. -/
def isMantissa (digit : Char → Bool) (mark : Char) (cs : List Char) : Bool :=
  let whole := cs.takeWhile digit
  match cs.dropWhile digit with
  | '.' :: rest =>
    !(whole.isEmpty && (rest.takeWhile digit).isEmpty) && isExponent mark (rest.dropWhile digit)
  | rest => !whole.isEmpty && isExponent mark rest

def isNumeral : List Char → Bool
  | '0' :: x :: rest =>
    if x == 'x' || x == 'X' then isMantissa isHexDigit 'p' rest
    else isMantissa Char.isDigit 'e' ('0' :: x :: rest)
  | cs => isMantissa Char.isDigit 'e' cs

/-- A numeral at the start of some text, with the number of characters after the first. -/
def numeral? (c : Char) (rest : List Char) : Option (Piece × Nat) :=
  let hexadecimal := c == '0' && (rest.head? == some 'x' || rest.head? == some 'X')
  let length := numeralLength (if hexadecimal then 'p' else 'e') (c :: rest) 0
  if isNumeral ((c :: rest).take length) then some (.token .number, length - 1) else none

/-- A comment, given what follows its two dashes, with the number of characters after the first dash. -/
def comment? (cs : List Char) : Option (Piece × Nat) :=
  let toLineEnd := (cs.takeWhile (· != '\n')).length
  match cs with
  | '[' :: rest =>
    match longBracket? rest with
    | some level => (longText? level rest).map fun n => (.gap, n + 2)
    | none => some (.gap, toLineEnd + 1)
  | _ => some (.gap, toLineEnd + 1)

def sign? (cs : List Char) : Option (Piece × Nat) :=
  (signs.find? fun s => s.toList.isPrefixOf cs).map fun s => (.token (.sign s), s.length - 1)

/-- The first piece of a text that starts with `c`, with the number of characters after `c` that
belong to it. -/
def piece? (c : Char) (rest : List Char) : Option (Piece × Nat) :=
  if isSpace c then some (.gap, (rest.takeWhile isSpace).length)
  else if isLetter c then
    let tail := rest.takeWhile isNamePart
    let text := String.ofList (c :: tail)
    some (.token (if reservedWords.contains text then .word text else .name), tail.length)
  else if c.isDigit || (c == '.' && (rest.head?.map Char.isDigit).getD false) then numeral? c rest
  else if c == '"' || c == '\'' then (quotedEnd? c rest 0).map fun n => (.token .string, n)
  else if c == '-' && rest.head? == some '-' then comment? rest.tail
  else if c == '[' then
    match longBracket? rest with
    | some level => (longText? level rest).map fun n => (.token .string, n)
    | none => sign? (c :: rest)
  else sign? (c :: rest)

def tokensFrom (here : Point) (done : Array Token) (cs : List Char) : Option (Array Token) :=
  match cs with
  | [] => some done
  | c :: rest =>
    match piece? c rest with
    | none => none
    | some (piece, more) =>
      let stop := (rest.take more).foldl Point.advance (here.advance c)
      let done := match piece with
        | .gap => done
        | .token kind => done.push ⟨kind, ⟨here, stop⟩⟩
      tokensFrom stop done (rest.drop more)
termination_by cs.length
decreasing_by
  simp only [List.length_drop, List.length_cons]
  omega

def byteOrderMark : Char := '\uFEFF'

def tokens? (cs : List Char) : Option (Array Token) :=
  let mark := cs.takeWhile (· == byteOrderMark) |>.take 1
  let cs := cs.drop mark.length
  let opening := if cs.head? == some '#' then cs.takeWhile (· != '\n') else []
  tokensFrom ((mark ++ opening).foldl Point.advance ⟨0, 0, 0⟩) #[] (cs.drop opening.length)

end LuaSymbols.Lua
