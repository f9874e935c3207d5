import LuaSymbols.Proofs.Indexing
import Mathlib.Data.List.Dedup
import Mathlib.Data.List.Perm.Basic

namespace LuaSymbols

namespace Table

variable {α : Type} {g h : α → α}

end Table

section Fold

variable {α β : Type} {f : β → α → β}

end Fold

namespace Workspace

variable {tools : Tools} {provider : ContentProvider} {w : Workspace}

/-- The console shows what a refresh of the file tells, if the file is tracked. -/
def Heard (tools : Tools) (provider : ContentProvider) (w : Workspace) (identity : String) : Prop :=
  ∀ f, w.get? identity = some f → tools.console.ShowsAll (f.refresh tools.lenient provider).notices

def dirtyAt (w : Workspace) (identity : String) : Bool := (w.get? identity).any (·.dirty)

end Workspace

end LuaSymbols
