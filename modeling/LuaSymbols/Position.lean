namespace LuaSymbols

structure Position where
  line : Int
  column : Int
deriving DecidableEq, Repr, Inhabited

namespace Position

instance : LE Position where
  le p q := p.line < q.line ∨ (p.line = q.line ∧ p.column ≤ q.column)

instance : LT Position where
  lt p q := p.line < q.line ∨ (p.line = q.line ∧ p.column < q.column)

instance (p q : Position) : Decidable (p ≤ q) :=
  inferInstanceAs (Decidable (p.line < q.line ∨ (p.line = q.line ∧ p.column ≤ q.column)))

instance (p q : Position) : Decidable (p < q) :=
  inferInstanceAs (Decidable (p.line < q.line ∨ (p.line = q.line ∧ p.column < q.column)))

theorem le_def {p q : Position} :
    p ≤ q ↔ p.line < q.line ∨ (p.line = q.line ∧ p.column ≤ q.column) := Iff.rfl

theorem lt_def {p q : Position} :
    p < q ↔ p.line < q.line ∨ (p.line = q.line ∧ p.column < q.column) := Iff.rfl

theorem le_refl (p : Position) : p ≤ p := by
  simp [le_def]

theorem le_trans {p q r : Position} (hpq : p ≤ q) (hqr : q ≤ r) : p ≤ r := by
  simp only [le_def] at *
  omega

theorem not_lt {p q : Position} : ¬ p < q ↔ q ≤ p := by
  simp only [le_def, lt_def]
  omega

def origin : Position := ⟨0, 0⟩

def sort (ps : List Position) : List Position :=
  ps.mergeSort fun p q => decide (p ≤ q)

def describe (p : Position) : String :=
  s!"Position(line={p.line}, column={p.column})"

def short (p : Position) : String :=
  s!"{p.line}:{p.column}"

end Position

/-- A closed interval of positions: both ends belong to it. -/
structure Range where
  start : Position
  stop : Position
  start_le_stop : start ≤ stop
deriving DecidableEq, Repr

namespace Range

def ofPositions? (start stop : Position) : Option Range :=
  if h : start ≤ stop then some ⟨start, stop, h⟩ else none

def point (p : Position) : Range := ⟨p, p, p.le_refl⟩

instance : Inhabited Range := ⟨point Position.origin⟩

def contains (r : Range) (p : Position) : Bool :=
  decide (r.start ≤ p) && decide (p ≤ r.stop)

theorem contains_iff {r : Range} {p : Position} :
    r.contains p = true ↔ r.start ≤ p ∧ p ≤ r.stop := by
  simp [contains]

def short (r : Range) : String :=
  s!"{r.start.short}-{r.stop.short}"

end Range

end LuaSymbols
