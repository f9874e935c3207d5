import LuaSymbols.FileSystem
import LuaSymbols.Notice
import LuaSymbols.Text.Case
import LuaSymbols.Text.Utf8
import LuaSymbols.Toml.Document

namespace LuaSymbols

structure Settings where
  logLevel : String
  luaVersion : String
  extensions : List String
  maxFileSize : Int
  evictOnClose : Bool
deriving DecidableEq, Repr

namespace Settings

def default : Settings where
  logLevel := "INFO"
  luaVersion := "5.4"
  extensions := [".lua"]
  maxFileSize := 1048576
  evictOnClose := false

def luaVersions : List String := ["5.1", "5.2", "5.3", "5.4"]

def logLevels : List String := ["DEBUG", "INFO", "WARNING", "ERROR"]

def debugLevel : String := "DEBUG"

end Settings

structure Project where
  directory : FilePath
  settings : Settings
deriving DecidableEq, Repr

/-- Why a value cannot become a setting: it is of a kind that has no such form, it is not a number or
has too many digits, or it is beyond all numbers. -/
inductive ConversionError where
  | wrongKind
  | notNumber
  | unbounded
deriving DecidableEq, Repr

inductive SettingsError where
  | unsupportedVersion (version : String)
  | unknownLevel (level : String)
  | sizeNotPositive
  | sizeNotInteger (text : String)
  | conversion (e : ConversionError)
  | undecodable
  | unprintable (markup : String)
deriving DecidableEq, Repr

namespace SettingsError

/-- The message about settings that the index cannot honour; the other errors have none. -/
def message? : SettingsError → Option String
  | .unsupportedVersion version =>
    let supported := ", ".intercalate Settings.luaVersions
    some s!"Unsupported Lua version '{version}'. Expected one of: {supported}."
  | .unknownLevel level => some s!"Unknown log level '{level}'."
  | .sizeNotPositive => some "max_file_size must be positive."
  | .sizeNotInteger text => some s!"LUAINDEX_MAX_FILE_SIZE is not an integer: {text}"
  | .conversion _ | .undecodable | .unprintable _ => none

end SettingsError

namespace Toml.Value

def toText (v : Value) : Except ConversionError String :=
  match v.text? with
  | some s => .ok s
  | none => .error .notNumber

def toLevel (v : Value) : Except ConversionError String := upperCase <$> v.toText

/-- A value as an integer. Fractions are cut off, and texts are read. -/
def toInteger : Value → Except ConversionError Int
  | .integer n => .ok n
  | .boolean b => .ok (if b then 1 else 0)
  | .float (.infinity _) => .error .unbounded
  | .float x =>
    match x.truncate? with
    | some n => .ok n
    | none => .error .notNumber
  | .string s =>
    match Numeral.integer? s.toList with
    | some n => .ok n
    | none => .error .notNumber
  | .date _ | .time _ | .moment .. | .array _ | .table _ => .error .wrongKind

/-- The parts of a value: the items of a list, the characters of a text, the keys of a table. -/
def toItems : Value → Except ConversionError (List Value)
  | .array items => .ok items
  | .string s => .ok (s.toList.map fun c => .string (String.singleton c))
  | .table entries => .ok (entries.map fun (key, _) => .string key)
  | .integer _ | .float _ | .boolean _ | .date _ | .time _ | .moment .. => .error .wrongKind

def toExtensions (v : Value) : Except ConversionError (List String) := do
  let items ← v.toItems
  items.mapM fun item => lowerCase <$> item.toText

end Toml.Value

namespace Settings

def override {α : Type} (entries : Toml.Entries) (key : String)
    (convert : Toml.Value → Except ConversionError α) (s : Settings) (set : Settings → α → Settings) :
    Except ConversionError Settings :=
  match Table.get? entries key with
  | none => .ok s
  | some v => (convert v).map (set s)

def applyFile (s : Settings) (entries : Toml.Entries) : Except ConversionError Settings := do
  let s ← override entries "log_level" Toml.Value.toLevel s
    fun s level => { s with logLevel := level }
  let s ← override entries "lua_version" Toml.Value.toText s
    fun s version => { s with luaVersion := version }
  let s ← override entries "extensions" Toml.Value.toExtensions s
    fun s extensions => { s with extensions := extensions }
  let s ← override entries "max_file_size" Toml.Value.toInteger s
    fun s size => { s with maxFileSize := size }
  override entries "evict_on_close" (fun v => .ok v.truth) s
    fun s evict => { s with evictOnClose := evict }

def variableNames : List String :=
  ["LUAINDEX_LOG_LEVEL", "LUAINDEX_LUA_VERSION", "LUAINDEX_EVICT_ON_CLOSE", "LUAINDEX_MAX_FILE_SIZE"]

/-- The values of environment variables. A value is a text of whole characters: the bytes of a variable
that are no character of an encoding are not told apart. -/
abbrev Environment := String → Option String

def Environment.value? (env : Environment) (name : String) : Option String :=
  (env name).filter fun value => !value.isEmpty

def trueWords : List String := ["true", "1", "yes"]

def applyEnvironment (s : Settings) (env : Environment) : Except SettingsError Settings :=
  let s := match env.value? "LUAINDEX_LOG_LEVEL" with
    | some level => { s with logLevel := upperCase level }
    | none => s
  let s := match env.value? "LUAINDEX_LUA_VERSION" with
    | some version => { s with luaVersion := version }
    | none => s
  let s := match env.value? "LUAINDEX_EVICT_ON_CLOSE" with
    | some word => { s with evictOnClose := trueWords.contains (lowerCase word) }
    | none => s
  match env.value? "LUAINDEX_MAX_FILE_SIZE" with
  | none => .ok s
  | some text =>
    match Numeral.integer? text.toList with
    | some size => .ok { s with maxFileSize := size }
    | none => .error (.sizeNotInteger text)

def validate (s : Settings) : Except SettingsError Settings :=
  if s.luaVersion ∉ luaVersions then .error (.unsupportedVersion s.luaVersion)
  else if s.logLevel ∉ logLevels then .error (.unknownLevel s.logLevel)
  else if s.maxFileSize ≤ 0 then .error .sizeNotPositive
  else .ok s

inductive FileContent where
  | absent
  | unreadable (reason : String)
  | bytes (bytes : List UInt8)

structure File where
  path : FilePath
  content : FileContent

namespace File

def warning (file : File) (reason : String) : String :=
  s!"[yellow]Warning:[/yellow] Could not parse {file.path.text}: {reason}"

/-- The entries of a file that is passed over, none, with the warning about it as it is shown. -/
def passOver (file : File) (console : Console) (reason : String) :
    Except SettingsError (Toml.Entries × Option String) :=
  match console (file.warning reason) with
  | some line => .ok ([], some line)
  | none => .error (.unprintable (file.warning reason))

/-- The entries of a settings file, with a warning if it cannot be read or is not in its format. What
is wrong with a text that is not in the format is told by `complaint`. -/
def read (file : File) (console : Console) (complaint : List Char → String) :
    Except SettingsError (Toml.Entries × Option String) :=
  match file.content with
  | .absent => .ok ([], none)
  | .unreadable reason => file.passOver console reason
  | .bytes bytes =>
    match Utf8.decode? bytes with
    | none => .error .undecodable
    | some cs =>
      match Toml.parse (Newlines.unify cs) with
      | .ok entries => .ok (entries, none)
      | .error .malformed => file.passOver console (complaint (Newlines.unify cs))
      | .error .tooManyDigits => .error (.conversion .notNumber)

end File

/-- The settings of a file over the given ones, and the warning about the file. -/
def layer (s : Settings) (console : Console) (complaint : List Char → String) (file : File) :
    Option String × Except SettingsError Settings :=
  match file.read console complaint with
  | .error e => (none, .error e)
  | .ok (entries, warning) => (warning, (s.applyFile entries).mapError .conversion)

/-- Loaded settings, or why there are none, and the warnings that were shown about the two files. -/
structure Loaded where
  globalWarning : Option String
  projectWarning : Option String
  outcome : Except SettingsError Settings

def Loaded.project (loaded : Loaded) (directory : FilePath) : Except SettingsError Project :=
  loaded.outcome.map fun s => ⟨directory, s⟩

/-- Loads the settings. The user's file is read first, the project's file over it, and the environment
over both. -/
def load (console : Console) (complaint : List Char → String) (global project : File)
    (env : Environment) : Loaded :=
  match default.layer console complaint global with
  | (globalWarning, .error e) => ⟨globalWarning, none, .error e⟩
  | (globalWarning, .ok s) =>
    match s.layer console complaint project with
    | (projectWarning, .error e) => ⟨globalWarning, projectWarning, .error e⟩
    | (projectWarning, .ok s) =>
      ⟨globalWarning, projectWarning, (s.applyEnvironment env).bind validate⟩

end Settings

end LuaSymbols
