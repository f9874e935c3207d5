namespace LuaSymbols.Case

/-- The characters `first`, `first + step`, and so on up to `last`, each mapped `shift` further. -/
structure Run where
  first : Nat
  last : Nat
  step : Nat
  shift : Int

def Run.has (r : Run) (n : Nat) : Bool :=
  r.first ≤ n && n ≤ r.last && (n - r.first) % r.step == 0

/-- Maps a character by the run that has it; a character of no run stays. The runs stand in their order,
and so the first one that does not end before the character is the only one that can have it. -/
def shiftBy (runs : Array Run) (c : Char) : Char :=
  match runs.find? (c.toNat ≤ ·.last) with
  | some r => if r.has c.toNat then Char.ofNat (c.toNat + r.shift).toNat else c
  | none => c

end LuaSymbols.Case
