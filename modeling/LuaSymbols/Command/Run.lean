import LuaSymbols.Command.Arguments
import LuaSymbols.Lowering
import LuaSymbols.Report
import LuaSymbols.Scan

namespace LuaSymbols

def Service.ofSettings (s : Settings) : Service :=
  .new s.evictOnClose (s.logLevel == Settings.debugLevel)

namespace Command

def programVersion : String := "luaindex 0.1.0"

def settingsPath : FilePath := [".luaindex", "config.toml"]

def userSettingsPath : FilePath := [".config", "luaindex", "config.toml"]

/-- All that a command works with: what it can see, the grammar of source texts, the console, and the
words for a settings file that is not in its format. -/
structure World where
  fileSystem : FileSystem
  cwd : FilePath
  home : FilePath
  environment : Settings.Environment
  grammar : List Char → Option ParseTree
  console : Console
  complaint : List Char → String

inductive Line where
  | text (s : String)
  | row (cells : List String)
deriving DecidableEq, Repr

inductive Stop where
  | failed (message : String)
  | badSettings (e : SettingsError)
  | rulesUnreadable (reason : String)
  | fault (f : Fault)

/-- What a command has shown: lines for the user, notices beside them, and warnings about settings
files. -/
structure Transcript where
  lines : Array Line
  notices : Array Notice
  warnings : Array String

/-- A command while it runs. What it has shown stays when it stops. -/
abbrev Action := ExceptT Stop (StateM Transcript)

namespace Action

def shown (console : Console) (markup : String) : Action String :=
  match console markup with
  | some line => return line
  | none => throw (.fault (.unprintable markup))

def say (console : Console) (markup : String) : Action Unit := do
  let line ← shown console markup
  modify fun t => { t with lines := t.lines.push (.text line) }

/-- Shows a table. One text in it that the console refuses stops the whole table. -/
def table (console : Console) (title : String) (rows : List (List String)) : Action Unit := do
  let title ← shown console title
  let rows ← rows.mapM fun cells => cells.mapM (shown console)
  modify fun t => { t with lines := t.lines ++ Line.text title :: rows.map .row }

def note (console : Console) (notice : Notice) : Action Unit :=
  if console.shows notice then modify fun t => { t with notices := t.notices.push notice }
  else throw (.fault (.unprintable notice.markup))

/-- Takes over the outcome of an operation of the service, which has shown its own notices. -/
def ask {α : Type} (r : Reply α) : Action (Service × α) := do
  modify fun t => { t with notices := t.notices ++ r.notices }
  match r.answer with
  | .ok a => return (r.service, a)
  | .error f => throw (.fault f)

/-- Settings that the index cannot honour are reported; all else is an error of the program. -/
def ofSettings {α : Type} : Except SettingsError α → Action α
  | .ok a => return a
  | .error e =>
    match e.message? with
    | some message => throw (.failed message)
    | none => throw (.badSettings e)

def ofScan {α : Type} : Except ScanError α → Action α
  | .ok a => return a
  | .error (.rulesUnreadable reason) => throw (.rulesUnreadable reason)
  | .error e => throw (.failed (e.message?.getD ""))

end Action

namespace World

def settingsFile (w : World) (path : FilePath) : Settings.File where
  path := path
  content :=
    match w.fileSystem.file? path with
    | none => .absent
    | some f =>
      match f.read with
      | .ok bytes => .bytes bytes
      | .error reason => .unreadable reason

def load (w : World) (directory : FilePath) : Settings.Loaded :=
  Settings.load w.console w.complaint (w.settingsFile (w.home ++ userSettingsPath))
    (w.settingsFile (directory ++ settingsPath)) w.environment

/-- The project in a directory. A command can ask for debugging on top of its settings. -/
def project (w : World) (directory : FilePath) (verbose : Bool) : Action Project := do
  let loaded := w.load directory
  modify fun t => { t with
    warnings := t.warnings ++ loaded.globalWarning.toList ++ loaded.projectWarning.toList }
  let p ← Action.ofSettings (loaded.project directory)
  return if verbose then { p with settings.logLevel := Settings.debugLevel } else p

def tools (w : World) (s : Settings) : Tools where
  parser text := text.parseWith s.luaVersion w.grammar
  console := w.console

def source (w : World) (file : FilePath) : Action Text := do
  if (w.fileSystem.file? file).isNone then throw (.failed s!"File not found: {file.text}")
  match Scanner.readSource w.fileSystem file with
  | .ok text => return text
  | .error reason => throw (.failed s!"Cannot read {file.text}: {reason}")

end World

def relativeUri (root : FilePath) (uri : String) : String :=
  let front := (root.uri ++ "/").toList
  if front.isPrefixOf uri.toList then String.ofList (uri.toList.drop front.length) else uri

def reportCells (directory : FilePath) (report : Report) : List (List String) :=
  ["File", "Functions", "Status"] :: report.rows.map fun row =>
    [relativeUri directory row.uri, toString row.functions, row.status]

def showReport (console : Console) (directory : FilePath) (report : Report) : Action Unit := do
  Action.table console "Lua Index" (reportCells directory report)
  Action.say console report.summary

def scan (w : World) (root : Option String) (verbose : Bool) : Action Unit := do
  let project ← w.project (w.fileSystem.resolve w.cwd (root.getD ".")) verbose
  let s := project.settings
  let scanner ← Action.ofScan (Scanner.ofDirectory w.fileSystem project.directory s)
  let (documents, notices) ← Action.ofScan scanner.readDocuments
  notices.forM (Action.note w.console)
  if documents.isEmpty then Action.say w.console "[yellow]No Lua files found.[/yellow]"
  else
    let (_, report) ← Action.ask ((Service.ofSettings s).report (w.tools s) documents)
    showReport w.console project.directory report

def symbols (w : World) (file : String) (verbose : Bool) : Action Unit := do
  let path := w.fileSystem.resolve w.cwd file
  let project ← w.project path.dropLast verbose
  let s := project.settings
  let tools := w.tools s
  let text ← w.source path
  let (service, _) ← Action.ask ((Service.ofSettings s).seed tools [(path.uri, text)])
  let (service, problems) ← Action.ask (service.diagnostics tools path.uri)
  for p in problems do
    Action.say w.console (s!"[yellow]Warning[/yellow]: {p.message} " ++
      s!"at line {p.range.start.line}, column {p.range.start.column}")
  let (_, declared) ← Action.ask (service.listSymbols tools path.uri)
  if declared.isEmpty then Action.say w.console "[dim]No functions declared.[/dim]"
  else
    Action.table w.console (path.getLastD "") (["Name", "Kind", "Range"] ::
      declared.map fun symbol => [symbol.name, symbol.kind.label, symbol.range.short])

def indexFiles (tools : Tools) (scanner : Scanner) (service : Service) (files : List SourceFile) :
    Action Service :=
  files.foldlM (fun service f =>
    match scanner.readFile f with
    | .error notice => do
      Action.note tools.console notice
      return service
    | .ok document => do
      let (service, _) ← Action.ask (service.seed tools [document])
      return service) service

def definition (w : World) (file : String) (position : Position) (root : Option String)
    (verbose : Bool) : Action Unit := do
  let path := w.fileSystem.resolve w.cwd file
  let project ← w.project (w.fileSystem.resolve w.cwd (root.getD ".")) verbose
  let s := project.settings
  let tools := w.tools s
  let scanner ← Action.ofScan (Scanner.ofDirectory w.fileSystem project.directory s)
  let files ← Action.ofScan scanner.scan
  Action.note w.console (.found files.length)
  let service ← indexFiles tools scanner (Service.ofSettings s) files
  let service ← if service.workspace.has (identityOf path.uri) then pure service
    else do
      let text ← w.source path
      let (service, _) ← Action.ask (service.seed tools [(path.uri, text)])
      pure service
  let (_, locations) ← Action.ask (service.findDefinition tools path.uri position)
  if locations.isEmpty then Action.say w.console "[yellow]No definition found.[/yellow]"
  else
    for l in locations do
      Action.say w.console s!"{l.uri}:{l.range.short}"

def perform (w : World) : Request → Action Unit
  | .version => Action.say w.console programVersion
  | .scan root verbose => scan w root verbose
  | .symbols file verbose => symbols w file verbose
  | .definition file line column root verbose => definition w file ⟨line, column⟩ root verbose

/-- How a run of the program ends. A crash is an error that is nobody's business but the program's. -/
inductive Outcome where
  | usage
  | exit (code : Nat) (transcript : Transcript)
  | crash (stop : Stop)

def errorLine (message : String) : String := s!"[bold red]Error:[/bold red] {message}"

/-- Runs a request to its end. A message that the console refuses is an error of its own. -/
def Request.run (w : World) (request : Request) : Outcome :=
  match (perform w request).run ⟨#[], #[], #[]⟩ with
  | (.ok (), t) => .exit 0 t
  | (.error (.failed message), t) =>
    match w.console (errorLine message) with
    | some line => .exit 1 { t with lines := t.lines.push (.text line) }
    | none => .crash (.fault (.unprintable (errorLine message)))
  | (.error stop, _) => .crash stop

def run (w : World) (words : List String) : Outcome :=
  match Request.ofWords? words with
  | none => .usage
  | some request => request.run w

end Command

end LuaSymbols
