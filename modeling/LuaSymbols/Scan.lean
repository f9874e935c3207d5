import LuaSymbols.Ignore
import LuaSymbols.Notice
import LuaSymbols.Settings
import LuaSymbols.Text.CodePoint
import LuaSymbols.Uri

namespace LuaSymbols

structure SourceFile where
  path : List String
  size : Nat
deriving DecidableEq, Repr

def SourceFile.text (f : SourceFile) : String := "/".intercalate f.path

/-- The end of a file name from its last point on. A point at either end of the name makes none. -/
def suffixOf (name : String) : String :=
  let cs := name.toList
  let tail := (cs.reverse.takeWhile (· != '.')).reverse
  let head := cs.length - tail.length
  if 1 < head && !tail.isEmpty then String.ofList ('.' :: tail) else ""

def toolDirectories : List String :=
  [".git", ".hg", ".svn", ".luaindex", ".luarocks", "lua_modules", "node_modules", "__pycache__",
   "dist", "build"]

def isToolDirectory (name : String) : Bool :=
  name.toList.head? == some '.' || toolDirectories.contains name

structure Criteria where
  extensions : List String
  maxFileSize : Int
  ignoreRules : List IgnoreRule

namespace Criteria

def enters (c : Criteria) (path : List String) : Bool :=
  !isToolDirectory (path.getLastD "") && !isIgnored c.ignoreRules path

def takes (c : Criteria) (path : List String) (size : Nat) : Bool :=
  c.extensions.contains (lowerCase (suffixOf (path.getLastD ""))) &&
    decide ((size : Int) ≤ c.maxFileSize) && !isIgnored c.ignoreRules path

end Criteria

namespace Entry

mutual

/-- The source files at or below an entry. What a link leads to is told by `linkSize?`; a link to a
directory is not entered. -/
def sources (c : Criteria) (linkSize? : List String → Option Nat) (path : List String) :
    Entry → List SourceFile
  | .file f => if c.takes path f.size then [⟨path, f.size⟩] else []
  | .link _ =>
    match linkSize? path with
    | some size => if c.takes path size then [⟨path, size⟩] else []
    | none => []
  | .directory entries => if c.enters path then sourcesAmong c linkSize? path entries else []

def sourcesAmong (c : Criteria) (linkSize? : List String → Option Nat) (path : List String) :
    List (String × Entry) → List SourceFile
  | [] => []
  | (name, e) :: rest =>
    sources c linkSize? (path ++ [name]) e ++ sourcesAmong c linkSize? path rest

end

end Entry

def nameBefore (a b : String) : Bool :=
  a.toList.lex b.toList fun c d => c.toNat.blt d.toNat

/-- Whether a path stands before another: the first names that differ decide. -/
def pathBefore (p q : List String) : Bool := p.lex q nameBefore

def SourceFile.sort (files : List SourceFile) : List SourceFile :=
  files.mergeSort fun f g => !pathBefore g.path f.path

inductive ScanError where
  | noDirectory (path : FilePath)
  | walkFailed (reason : String)
  | rulesUnreadable (reason : String)

def ScanError.message? : ScanError → Option String
  | .noDirectory path => some s!"Project directory does not exist: {path.text}"
  | .walkFailed reason => some s!"Failed to scan project directory: {reason}"
  | .rulesUnreadable _ => none

structure Scanner where
  fileSystem : FileSystem
  project : FilePath
  criteria : Criteria

namespace Scanner

def ignoreFile : String := ".gitignore"

/-- The rules of a directory. Without a file there are none. -/
def rulesOf (fs : FileSystem) (project : FilePath) : Except ScanError (List IgnoreRule) :=
  match fs.file? (project ++ [ignoreFile]) with
  | none => .ok []
  | some f => (f.read.map IgnoreRule.ofBytes).mapError .rulesUnreadable

def ofDirectory (fs : FileSystem) (project : FilePath) (s : Settings) : Except ScanError Scanner :=
  match fs.directory? project with
  | none => .error (.noDirectory project)
  | some _ => do
    let rules ← rulesOf fs project
    return ⟨fs, project, ⟨s.extensions.map lowerCase, s.maxFileSize, rules⟩⟩

def scan (s : Scanner) : Except ScanError (List SourceFile) :=
  match s.fileSystem.walkRefusal with
  | some reason => .error (.walkFailed reason)
  | none =>
    let entries := (s.fileSystem.directory? s.project).getD []
    let linkSize? := fun path => (s.fileSystem.file? (s.project ++ path)).map (·.size)
    .ok (SourceFile.sort (Entry.sourcesAmong s.criteria linkSize? [] entries))

/-- The text of a source file, or why it cannot be read. Malformed bytes are replaced. -/
def readSource (fs : FileSystem) (path : FilePath) : Except String Text :=
  match fs.file? path with
  | none => .error "No such file or directory"
  | some f => f.read.map fun bytes => Text.ofChars (Newlines.unify (Utf8.decode bytes))

/-- A file that was found, as a document under its URI; one that cannot be read is passed over. -/
def readFile (s : Scanner) (f : SourceFile) : Except Notice (String × Text) :=
  match readSource s.fileSystem (s.project ++ f.path) with
  | .ok text => .ok (FilePath.uri (s.project ++ f.path), text)
  | .error reason => .error (.skipping f.text reason)

/-- Finds and reads the source files, with the notices on the way: first how many were found, then the
files that are passed over. -/
def readDocuments (s : Scanner) : Except ScanError (List (String × Text) × List Notice) := do
  let files ← s.scan
  let read := files.map s.readFile
  let skipped := read.filterMap fun
    | .error notice => some notice
    | .ok _ => none
  return (read.filterMap Except.toOption, .found files.length :: skipped)

end Scanner

end LuaSymbols
