import LuaSymbols.FileIndex
import LuaSymbols.Notice

namespace LuaSymbols

/-- The indexes of all known files, under their identities, in the order in which they were first
seen. -/
abbrev Workspace := Table FileIndex

abbrev ContentProvider := String → Except String Text

structure Tools where
  parser : Parser
  console : Console

structure Location where
  uri : String
  range : Range
deriving DecidableEq, Repr

structure Refresh where
  index : FileIndex
  asked : Bool
  notices : List Notice
  fault : Option Fault
deriving DecidableEq

/-- The refresh of a file that was asked for its text and has led to the given index and to a notice
for the user. -/
def Refresh.warning (f : FileIndex) (console : Console) (notice : Notice) : Refresh :=
  if console.shows notice then ⟨f, true, [notice], none⟩
  else ⟨f, true, [], some (.unprintable notice.markup)⟩

/-- Brings the index of a file up to date, unless it is. Without a text, or with one that does not
parse, the index stays dirty and the user is warned, after all that the text has done to the index. -/
def FileIndex.refresh (f : FileIndex) (tools : Tools) (provider : ContentProvider) : Refresh :=
  if f.dirty then
    match provider f.identity with
    | .error reason => .warning f tools.console (.noContent f.identity reason)
    | .ok text =>
      match f.rebuild text tools.parser with
      | .error fault => ⟨f, true, [], some fault⟩
      | .ok (f', some failure) => .warning f' tools.console (.cannotParse f.identity failure)
      | .ok (f', none) => ⟨f', true, [], none⟩
  else ⟨f, false, [], none⟩

namespace Workspace

/-- Starts to track a file. A file that is tracked stays as it is. -/
def track (w : Workspace) (identity : String) : Workspace :=
  if w.has identity then w else w.put identity (.new identity)

def entry (w : Workspace) (identity : String) : FileIndex :=
  (w.get? identity).getD (.new identity)

/-- Marks a file as changed. A file that is not tracked is passed over. -/
def markDirty (w : Workspace) (identity : String) : Workspace :=
  match w.get? identity with
  | some f => w.put identity f.markDirty
  | none => w

structure Freshened where
  workspace : Workspace
  index : Option FileIndex
  asked : List String
  notices : List Notice
  fault : Option Fault

def ensureFresh (w : Workspace) (tools : Tools) (identity : String) (provider : ContentProvider) :
    Freshened :=
  match w.get? identity with
  | none => ⟨w, none, [], [], none⟩
  | some f =>
    let r := f.refresh tools provider
    ⟨w.put identity r.index, some r.index, if r.asked then [identity] else [], r.notices, r.fault⟩

/-- Where a name is declared: of each file the last declaration, in the order of the files. -/
def resolve (w : Workspace) (name : String) : List Location :=
  w.values.filterMap fun f => (f.byName.get? name).map fun s => ⟨s.container, s.range⟩

end Workspace

end LuaSymbols
