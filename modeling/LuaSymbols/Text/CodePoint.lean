import LuaSymbols.Position

namespace LuaSymbols

inductive CodePoint where
  | char (c : Char)
  | surrogate (half : Fin 0x800)
deriving DecidableEq, Repr

namespace CodePoint

def value : CodePoint → Nat
  | .char c => c.toNat
  | .surrogate half => 0xD800 + half.val

def char? : CodePoint → Option Char
  | .char c => some c
  | .surrogate _ => none

def isSurrogate : CodePoint → Bool
  | .char _ => false
  | .surrogate _ => true

def ofNat (n : Nat) : CodePoint :=
  if h : n - 0xD800 < 0x800 ∧ 0xD800 ≤ n then .surrogate ⟨n - 0xD800, h.1⟩ else .char (Char.ofNat n)

end CodePoint

abbrev Text := List CodePoint

namespace Text

def ofChars (cs : List Char) : Text := cs.map .char

def ofString (s : String) : Text := ofChars s.toList

/-- The characters of a text. Lone surrogates are left out, so this is faithful exactly for the
texts without any. -/
def chars (t : Text) : List Char := t.filterMap CodePoint.char?

def firstSurrogate? (t : Text) : Option Nat := t.findIdx? CodePoint.isSurrogate

/-- One code point further: a line feed starts a line, all else takes one column. -/
def advance (p : Position) (c : CodePoint) : Position :=
  if c = .char '\n' then ⟨p.line + 1, 0⟩ else ⟨p.line, p.column + 1⟩

def positionOf (t : Text) (index : Nat) : Position :=
  (t.take index).foldl advance Position.origin

end Text

end LuaSymbols
