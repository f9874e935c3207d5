import LuaSymbols.Command.Run
import LuaSymbols.Lua.Grammar
import LuaSymbols.Markup

namespace LuaSymbols.Machine

/-- A regular file of the machine. One that cannot be read keeps its size. -/
def readFile (path : FilePath) (size : Nat) : IO Entry := do
  try
    return .file ⟨(← IO.FS.readBinFile path.text).toList, none⟩
  catch e =>
    return .file ⟨List.replicate size 0, some (toString e)⟩

/-- Everything at or below a path without links on it. Directories of tools are left out, since no
search enters them, and so is what is neither a file nor a directory nor a link to one of these. -/
partial def gather (path : FilePath) : IO (List (FilePath × Entry)) := do
  try
    let here ← IO.FS.realPath path.text
    let about ← here.metadata
    match about.type with
    | .file => return [(path, ← readFile path about.byteSize.toNat)]
    | .dir =>
      let inside ← (← here.readDir).toList.mapM fun e => do
        if isToolDirectory e.fileName && (← e.path.isDir) then return []
        else if (← e.path.symlinkMetadata).type == .symlink then link (path ++ [e.fileName])
        else gather (path ++ [e.fileName])
      return (path, .directory []) :: inside.flatten
    | _ => return []
  catch _ => return []
where
  link (path : FilePath) : IO (List (FilePath × Entry)) := do
    try
      let target ← IO.FS.realPath path.text
      let names := (splitPath target.toString).filter fun name => !name.isEmpty
      let file ← if (← target.metadata).type == .file then gather names else pure []
      return (path, .link target.toString) :: file
    catch _ => return []

/-- A written path without links and from the root, if there is something at it. -/
def realPath (path : String) : IO String := do
  try
    return (← IO.FS.realPath path).toString
  catch _ => return path

def names (path : String) : FilePath := (splitPath path).filter fun name => !name.isEmpty

/-- All that a request can ask for, directories before what is known to be in them. The paths of the
request start at the root. -/
def contents (home : FilePath) (request : Command.Request) : IO (List (FilePath × Entry)) := do
  let wanted := match request with
    | .version => []
    | .scan root _ => [names (root.getD "."), names (root.getD ".") ++ Command.settingsPath]
    | .symbols file _ => [names file, (names file).dropLast ++ Command.settingsPath]
    | .definition file _ _ root _ =>
      [names (root.getD "."), names (root.getD ".") ++ Command.settingsPath, names file]
  return (← (wanted ++ [home ++ Command.userSettingsPath]).mapM gather).flatten

def environment : IO Settings.Environment := do
  let values ← Settings.variableNames.mapM fun name => return (name, ← IO.getEnv name)
  return fun name => (values.lookup name).join

def printLine : Command.Line → IO Unit
  | .text s => IO.println s
  | .row cells => IO.println ("  ".intercalate cells)

/-- Runs a request on the machine. The answer is the exit code. -/
def run (request : Command.Request) : IO UInt32 := do
  let request ← request.mapPaths realPath
  let home := names ((← IO.getEnv "HOME").getD "/")
  let files ← contents home request
  let world : Command.World :=
    { fileSystem := ⟨files.foldl (fun root (path, e) => e.put path root) (.directory []), none⟩
      cwd := names (← IO.currentDir).toString
      home := home
      environment := ← environment
      grammar := Lua.parseTree?
      console := Markup.console
      complaint _ := "not in the format of settings files" }
  match request.run world with
  | .usage => return 2
  | .crash _ =>
    IO.eprintln "Error: a file or a line to be shown cannot be used."
    return 1
  | .exit code transcript =>
    transcript.warnings.forM IO.eprintln
    (world.console.lines transcript.notices.toList).forM IO.eprintln
    transcript.lines.forM printLine
    return code.toUInt32

end LuaSymbols.Machine

/-- The program. A command line that is not a proper one is answered with the proper ones. -/
def main (words : List String) : IO UInt32 := do
  match LuaSymbols.Command.Request.ofWords? words with
  | some request => LuaSymbols.Machine.run request
  | none =>
    IO.eprintln "Usage: version | scan [ROOT] [-v] | symbols FILE [-v] |"
    IO.eprintln "  definition FILE LINE COLUMN [-r ROOT] [-v]"
    return 2
