namespace LuaSymbols

/-- White space: the characters of a space, line or paragraph separator category, and the control
characters that move the writing position or separate records. -/
def isBlank (c : Char) : Bool :=
  let n := c.toNat
  (0x09 ≤ n && n ≤ 0x0D) || (0x1C ≤ n && n ≤ 0x20) || n == 0x85 || n == 0xA0 || n == 0x1680 ||
    (0x2000 ≤ n && n ≤ 0x200A) || n == 0x2028 || n == 0x2029 || n == 0x202F || n == 0x205F ||
    n == 0x3000

def isLineEnd (c : Char) : Bool :=
  let n := c.toNat
  (0x0A ≤ n && n ≤ 0x0D) || (0x1C ≤ n && n ≤ 0x1E) || n == 0x85 || n == 0x2028 || n == 0x2029

def trimBlank (cs : List Char) : List Char :=
  ((cs.dropWhile isBlank).reverse.dropWhile isBlank).reverse

def firstWord? (cs : List Char) : Option (List Char) :=
  match (cs.dropWhile isBlank).takeWhile (fun c => !isBlank c) with
  | [] => none
  | word => some word

namespace Newlines

/-- The characters written so far, and whether the last one read was a carriage return. -/
structure State where
  done : Array Char
  afterReturn : Bool

def step (s : State) (c : Char) : State :=
  if c = '\r' then ⟨s.done.push '\n', true⟩
  else if c = '\n' && s.afterReturn then ⟨s.done, false⟩
  else ⟨s.done.push c, false⟩

/-- Writes every carriage return, with the line feed after it if there is one, as a line feed. -/
def unify (cs : List Char) : List Char :=
  (cs.foldl step ⟨#[], false⟩).done.toList

end Newlines

/-- The lines of a text whose line ends are unified. The text after the last line end is a line
only if it is not empty. -/
def splitLines (cs : List Char) : List (List Char) :=
  let (lines, last) := cs.foldl
    (fun (s : Array (List Char) × List Char) c =>
      if isLineEnd c then (s.1.push s.2.reverse, []) else (s.1, c :: s.2))
    (#[], [])
  (if last.isEmpty then lines else lines.push last.reverse).toList

end LuaSymbols
