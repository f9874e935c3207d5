namespace LuaSymbols

abbrev Table (α : Type) := List (String × α)

namespace Table

variable {α : Type}

def get? (t : Table α) (key : String) : Option α :=
  (t.find? fun entry => entry.1 == key).map Prod.snd

def has (t : Table α) (key : String) : Bool :=
  t.any fun entry => entry.1 == key

/-- Writes a value under a key: in place if the key is known, else at the end. -/
def put (key : String) (value : α) : Table α → Table α
  | [] => [(key, value)]
  | (k, v) :: rest => if k = key then (k, value) :: rest else (k, v) :: put key value rest

def remove (t : Table α) (key : String) : Table α :=
  t.filter fun entry => entry.1 != key

def keys (t : Table α) : List String := t.map Prod.fst

def values (t : Table α) : List α := t.map Prod.snd

end Table

end LuaSymbols
