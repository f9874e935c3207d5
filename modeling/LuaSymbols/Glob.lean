namespace LuaSymbols.Glob

inductive Piece where
  | star
  | one
  | literal (c : Char)
  | set (negated : Bool) (ranges : List (Char × Char))
deriving DecidableEq, Repr

/-- Cuts the inside of brackets at the hyphens that make ranges: the first hyphen after `least`
characters, and then each one with two characters at least since the last cut. -/
def cut (least : Nat) (body : List Char) : List (List Char) :=
  match h : (body.drop least).findIdx? (· == '-') with
  | none => [body]
  | some n => body.take (least + n) :: cut 2 (body.drop (least + n + 1))
termination_by body.length
decreasing_by
  have found := (List.findIdx?_eq_some_iff_findIdx_eq.1 h).1
  simp only [List.length_drop] at found ⊢
  omega

def mendEnd (chunks : List (List Char)) : List (List Char) :=
  match chunks.reverse with
  | [] :: last :: rest => ((last ++ ['-']) :: rest).reverse
  | _ => chunks

def dropInverted (chunk : List Char) (rest : List (List Char)) : List (List Char) :=
  match chunk.getLast?, rest with
  | some last, (first :: tail) :: others =>
    if first < last then (chunk.dropLast ++ tail) :: others else chunk :: rest
  | _, _ => chunk :: rest

inductive Mark where
  | char (c : Char)
  | hyphen

def marksOf : List (List Char) → List Mark
  | [] => []
  | [chunk] => chunk.map .char
  | chunk :: rest => chunk.map .char ++ .hyphen :: marksOf rest

/-- The ranges of a set. A single character is a range of its own. -/
def rangesOf : List Mark → List (Char × Char)
  | .char a :: .hyphen :: .char b :: rest => (a, b) :: rangesOf rest
  | .char a :: rest => (a, a) :: rangesOf rest
  | .hyphen :: rest => ('-', '-') :: rangesOf rest
  | [] => []

/-- The set with the given characters between its brackets. A set that has lost all its ranges has no
character; negated, it has every one. -/
def setOf (body : List Char) : Piece :=
  let least := if body.head? == some '!' then 2 else 1
  match marksOf ((mendEnd (cut least body)).foldr dropInverted []) with
  | [.char '!'] => .one
  | .char '!' :: rest => .set true (rangesOf rest)
  | marks => .set false (rangesOf marks)

/-- How many characters stand between a bracket and its end, given what follows the bracket. A closing
bracket that comes first belongs to the set. -/
def bodyLength? (cs : List Char) : Option Nat :=
  let mark := if cs.head? == some '!' then 1 else 0
  let first := if (cs.drop mark).head? == some ']' then mark + 1 else mark
  ((cs.drop first).findIdx? (· == ']')).map (first + ·)

def parse (cs : List Char) : List Piece :=
  match cs with
  | [] => []
  | '*' :: rest => .star :: parse (rest.dropWhile (· == '*'))
  | '?' :: rest => .one :: parse rest
  | '[' :: rest =>
    match bodyLength? rest with
    | some n => setOf (rest.take n) :: parse (rest.drop (n + 1))
    | none => .literal '[' :: parse rest
  | c :: rest => .literal c :: parse rest
termination_by cs.length
decreasing_by
  all_goals simp only [List.length_cons, List.length_drop]
  all_goals first
    | omega
    | exact Nat.lt_succ_of_le (List.dropWhile_suffix _).length_le

def Piece.admits : Piece → Char → Bool
  | .star, _ | .one, _ => true
  | .literal l, c => l == c
  | .set negated ranges, c => (ranges.any fun (a, b) => a ≤ c && c ≤ b) != negated

def anyEnd (p : List Char → Bool) : List Char → Bool
  | [] => p []
  | c :: rest => p (c :: rest) || anyEnd p rest

def accepts : List Piece → List Char → Bool
  | [], cs => cs.isEmpty
  | .star :: pieces, cs => anyEnd (accepts pieces) cs
  | _ :: _, [] => false
  | piece :: pieces, c :: cs => piece.admits c && accepts pieces cs

end LuaSymbols.Glob

namespace LuaSymbols

def globMatches (pattern name : List Char) : Bool := Glob.accepts (Glob.parse pattern) name

end LuaSymbols
