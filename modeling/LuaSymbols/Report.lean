import LuaSymbols.Service

namespace LuaSymbols

structure ReportRow where
  uri : String
  functions : Nat
  problem : Option Diagnostic
deriving DecidableEq, Repr

def ReportRow.fine : String := "[green]ok[/green]"

/-- The status of a document, as markup: the problem with its line, or that there is none. -/
def ReportRow.status (r : ReportRow) : String :=
  match r.problem with
  | none => fine
  | some p => s!"[red]{p.message} ({p.range.start.line})[/red]"

structure Report where
  rows : List ReportRow
  functions : Nat
  failures : Nat
deriving DecidableEq, Repr

def Report.summary (r : Report) : String :=
  s!"[green]Indexed[/green] [bold]{r.functions}[/bold] functions across " ++
    s!"[bold]{r.rows.length}[/bold] files ([bold]{r.failures}[/bold] with parse errors)"

namespace Service

def reportRow (s : Service) (tools : Tools) (uri : String) : Reply ReportRow :=
  (s.listSymbols tools uri).andThen fun s declared =>
    (s.diagnostics tools uri).map fun problems => ⟨uri, declared.length, problems.head?⟩

def reportRows (s : Service) (tools : Tools) : List String → Reply (List ReportRow)
  | [] => s.reply []
  | uri :: rest => (s.reportRow tools uri).andThen fun s row =>
    (s.reportRows tools rest).map (row :: ·)

def report (s : Service) (tools : Tools) (documents : List (String × Text)) : Reply Report :=
  (s.seed tools documents).andThen fun s indexed =>
    (s.reportRows tools (documents.map Prod.fst)).map fun rows =>
      ⟨rows, (rows.map (·.functions)).foldr (· + ·) 0, documents.length - indexed⟩

end Service

end LuaSymbols
