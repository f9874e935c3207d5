import LuaSymbols.Markup
import LuaSymbols.Settings
import LuaSymbols.Proofs.Mentions

namespace LuaSymbols

theorem bind_ok_iff {ε α β : Type} {x : Except ε α} {f : α → Except ε β} {b : β} :
    x >>= f = .ok b ↔ ∃ a, x = .ok a ∧ f a = .ok b := by
  refine ⟨exists_of_bind_ok, ?_⟩
  intro ⟨a, ha, hb⟩
  rw [ha]
  exact hb

namespace Settings

variable {α : Type} {s s' : Settings} {console : Console} {complaint : List Char → String}
  {file : File} {t : Toml.Entries} {env : Environment}

/-- The table that a settings file counts as. A file that is not there, cannot be read or is not in its
format counts as an empty one. -/
inductive FileContent.Holds : FileContent → Toml.Entries → Prop
  | absent : Holds .absent []
  | unreadable (reason : String) : Holds (.unreadable reason) []
  | malformed {bytes : List UInt8} {cs : List Char} : Utf8.decode? bytes = some cs →
      Toml.parse (Newlines.unify cs) = .error .malformed → Holds (.bytes bytes) []
  | table {bytes : List UInt8} {cs : List Char} {t : Toml.Entries} : Utf8.decode? bytes = some cs →
      Toml.parse (Newlines.unify cs) = .ok t → Holds (.bytes bytes) t

/-- The file is passed over for a reason that the user is told. -/
inductive FileContent.PassedOver (complaint : List Char → String) : FileContent → String → Prop
  | unreadable (reason : String) : PassedOver complaint (.unreadable reason) reason
  | malformed {bytes : List UInt8} {cs : List Char} : Utf8.decode? bytes = some cs →
      Toml.parse (Newlines.unify cs) = .error .malformed →
      PassedOver complaint (.bytes bytes) (complaint (Newlines.unify cs))

/-- The console shows the warning about the file, if the file is passed over. -/
def File.Announced (file : File) (console : Console) (complaint : List Char → String) : Prop :=
  ∀ reason, file.content.PassedOver complaint reason → (console (file.warning reason)).isSome = true

/-- A file has one table at most: what it is passed over for and what it is read as exclude each
other. -/
theorem FileContent.Holds.unique {content : FileContent} {t' : Toml.Entries} (h : content.Holds t)
    (h' : content.Holds t') : t = t' := by
  cases h with
  | absent | unreadable =>
    cases h'
    rfl
  | malformed hdecode hparse =>
    cases h' with
    | malformed => rfl
    | table hdecode' hparse' =>
      cases hdecode.symm.trans hdecode'
      cases hparse.symm.trans hparse'
  | table hdecode hparse =>
    cases h' with
    | malformed hdecode' hparse' =>
      cases hdecode.symm.trans hdecode'
      cases hparse.symm.trans hparse'
    | table hdecode' hparse' =>
      cases hdecode.symm.trans hdecode'
      exact Except.ok.inj (hparse.symm.trans hparse')

theorem File.passOver_ok_iff {reason : String} :
    (∃ warning, file.passOver console reason = .ok (t, warning)) ↔
      (console (file.warning reason)).isSome = true ∧ t = [] := by
  unfold passOver
  cases console (file.warning reason) <;> simp [eq_comm]

/-- A file is read exactly if it counts as a table and the warning about it, if there is one, is shown. -/
theorem File.read_ok_iff : (∃ warning, file.read console complaint = .ok (t, warning)) ↔
    file.Announced console complaint ∧ file.content.Holds t := by
  obtain ⟨path, content⟩ := file
  constructor
  · rintro ⟨warning, h⟩
    unfold read at h
    -- The contents of a path one by one; bytes are split again by how they decode and parse.
    split at h <;> rename_i hcontent <;> cases hcontent
    · cases h
      exact ⟨nofun, .absent⟩
    · obtain ⟨hshown, rfl⟩ := passOver_ok_iff.mp ⟨warning, h⟩
      refine ⟨fun reason hpassed => ?_, .unreadable _⟩
      cases hpassed
      exact hshown
    · split at h
      · cases h
      · rename_i hdecode
        split at h
        · rename_i hparse
          cases h
          refine ⟨fun reason hpassed => ?_, .table hdecode hparse⟩
          cases hpassed with
          | malformed hdecode' hparse' =>
            cases hdecode.symm.trans hdecode'
            cases hparse.symm.trans hparse'
        · rename_i hparse
          obtain ⟨hshown, rfl⟩ := passOver_ok_iff.mp ⟨warning, h⟩
          refine ⟨fun reason hpassed => ?_, .malformed hdecode hparse⟩
          cases hpassed with
          | malformed hdecode' _ =>
            cases hdecode.symm.trans hdecode'
            exact hshown
        · cases h
  · rintro ⟨hannounced, hholds⟩
    cases hholds with
    | absent => exact ⟨none, rfl⟩
    | unreadable reason => exact passOver_ok_iff.mpr ⟨hannounced reason (.unreadable reason), rfl⟩
    | malformed hdecode hparse =>
      simp only [read, hdecode, hparse]
      exact passOver_ok_iff.mpr ⟨hannounced _ (.malformed hdecode hparse), rfl⟩
    | table hdecode hparse => exact ⟨none, by simp only [read, hdecode, hparse]⟩

def Converts (t : Toml.Entries) (key : String) (convert : Toml.Value → Except ConversionError α) : Prop :=
  ∀ v, Table.get? t key = some v → ∃ x, convert v = .ok x

/-- All values under known keys can be converted. Any value at all is true or false, so nothing is asked
of the one for evictions. -/
structure Convertible (t : Toml.Entries) : Prop where
  logLevel : Converts t "log_level" Toml.Value.toLevel
  luaVersion : Converts t "lua_version" Toml.Value.toText
  extensions : Converts t "extensions" Toml.Value.toExtensions
  maxFileSize : Converts t "max_file_size" Toml.Value.toInteger

def toTexts (v : Toml.Value) : Except ConversionError (List String) := do
  let items ← v.toItems
  items.mapM Toml.Value.toText

/-- Suffixes are texts first and put in lower case afterwards, so layers may be told about texts. -/
theorem toExtensions_eq (v : Toml.Value) : v.toExtensions = List.map lowerCase <$> toTexts v := by
  have hmapM (items : List Toml.Value) : items.mapM (fun item => lowerCase <$> item.toText) =
      List.map lowerCase <$> items.mapM Toml.Value.toText := by
    induction items with
    | nil => rfl
    | cons item rest ih =>
      rw [List.mapM_cons, List.mapM_cons, ih]
      cases item.toText <;> cases rest.mapM Toml.Value.toText <;> rfl
  unfold Toml.Value.toExtensions toTexts
  cases v.toItems with
  | error e => rfl
  | ok items => exact hmapM items

def given? (t : Toml.Entries) (key : String) (convert : Toml.Value → Except ConversionError α) :
    Option α :=
  (Table.get? t key).bind fun v => (convert v).toOption

theorem given?_map {β : Type} (t : Toml.Entries) (key : String) (f : α → β)
    (convert : Toml.Value → Except ConversionError α) :
    given? t key (fun v => f <$> convert v) = (given? t key convert).map f := by
  unfold given?
  cases Table.get? t key with
  | none => rfl
  | some v => cases hv : convert v <;> simp [hv, Functor.map, Except.map, Except.toOption]

theorem given?_toLevel (t : Toml.Entries) (key : String) :
    given? t key Toml.Value.toLevel = (given? t key Toml.Value.toText).map upperCase :=
  given?_map t key upperCase Toml.Value.toText

theorem given?_toExtensions (t : Toml.Entries) (key : String) :
    given? t key Toml.Value.toExtensions = (given? t key toTexts).map (List.map lowerCase) := by
  rw [funext toExtensions_eq, given?_map]

/-- One setting of a file: it is converted if it is there, and kept as it was if not. -/
theorem override_ok_iff {key : String} {convert : Toml.Value → Except ConversionError α}
    {set : Settings → α → Settings} (get : Settings → α) (hget : set s (get s) = s) :
    override t key convert s set = .ok s' ↔
      Converts t key convert ∧ s' = set s ((given? t key convert).getD (get s)) := by
  unfold override Converts given?
  cases Table.get? t key with
  | none => simp [hget, eq_comm]
  | some v => cases hv : convert v <;> simp [hv, Except.map, Except.toOption, eq_comm]

def withTable (s : Settings) (t : Toml.Entries) : Settings where
  logLevel := (given? t "log_level" Toml.Value.toLevel).getD s.logLevel
  luaVersion := (given? t "lua_version" Toml.Value.toText).getD s.luaVersion
  extensions := (given? t "extensions" Toml.Value.toExtensions).getD s.extensions
  maxFileSize := (given? t "max_file_size" Toml.Value.toInteger).getD s.maxFileSize
  evictOnClose := (given? t "evict_on_close" fun v => .ok v.truth).getD s.evictOnClose

/-- All settings of a file at once. The order in which they are converted decides only which error
comes first. -/
theorem applyFile_ok_iff : s.applyFile t = .ok s' ↔ Convertible t ∧ s' = s.withTable t := by
  unfold applyFile
  constructor
  · intro h
    obtain ⟨_, hset, h⟩ := bind_ok_iff.mp h
    obtain ⟨hlevel, rfl⟩ := (override_ok_iff (·.logLevel) rfl).mp hset
    obtain ⟨_, hset, h⟩ := bind_ok_iff.mp h
    obtain ⟨hversion, rfl⟩ := (override_ok_iff (·.luaVersion) rfl).mp hset
    obtain ⟨_, hset, h⟩ := bind_ok_iff.mp h
    obtain ⟨hextensions, rfl⟩ := (override_ok_iff (·.extensions) rfl).mp hset
    obtain ⟨_, hset, h⟩ := bind_ok_iff.mp h
    obtain ⟨hsize, rfl⟩ := (override_ok_iff (·.maxFileSize) rfl).mp hset
    obtain ⟨_, rfl⟩ := (override_ok_iff (·.evictOnClose) rfl).mp h
    exact ⟨⟨hlevel, hversion, hextensions, hsize⟩, rfl⟩
  · intro ⟨h, he⟩
    subst he
    refine bind_ok_iff.mpr ⟨_, (override_ok_iff (·.logLevel) rfl).mpr ⟨h.logLevel, rfl⟩, ?_⟩
    refine bind_ok_iff.mpr ⟨_, (override_ok_iff (·.luaVersion) rfl).mpr ⟨h.luaVersion, rfl⟩, ?_⟩
    refine bind_ok_iff.mpr ⟨_, (override_ok_iff (·.extensions) rfl).mpr ⟨h.extensions, rfl⟩, ?_⟩
    refine bind_ok_iff.mpr ⟨_, (override_ok_iff (·.maxFileSize) rfl).mpr ⟨h.maxFileSize, rfl⟩, ?_⟩
    exact (override_ok_iff (·.evictOnClose) rfl).mpr ⟨fun v _ => ⟨v.truth, rfl⟩, rfl⟩

theorem mapError_ok_iff {ε ε' : Type} {f : ε → ε'} {x : Except ε α} {a : α} :
    x.mapError f = .ok a ↔ x = .ok a := by
  cases x <;> simp [Except.mapError]

/-- A layer needs a file that can be read or passed over aloud, and values that can be converted. -/
theorem layer_ok_iff : (s.layer console complaint file).2 = .ok s' ↔
    ∃ t, (file.Announced console complaint ∧ file.content.Holds t) ∧ Convertible t ∧
      s' = s.withTable t := by
  simp only [← File.read_ok_iff, layer]
  cases file.read console complaint with
  | error e => simp
  | ok r =>
    obtain ⟨t, warning⟩ := r
    simp [mapError_ok_iff, applyFile_ok_iff]

def Environment.SizeReads (env : Environment) : Prop :=
  ∀ text, env "LUAINDEX_MAX_FILE_SIZE" = some text → text ≠ "" →
    ∃ n, Numeral.integer? text.toList = some n

def Environment.size? (env : Environment) : Option Int :=
  (env.value? "LUAINDEX_MAX_FILE_SIZE").bind fun text => Numeral.integer? text.toList

theorem Environment.value?_eq_some {name text : String} :
    env.value? name = some text ↔ env name = some text ∧ text ≠ "" := by
  simp [value?, Option.filter_eq_some_iff]

def withEnvironment (s : Settings) (env : Environment) : Settings where
  logLevel := ((env.value? "LUAINDEX_LOG_LEVEL").map upperCase).getD s.logLevel
  luaVersion := (env.value? "LUAINDEX_LUA_VERSION").getD s.luaVersion
  extensions := s.extensions
  maxFileSize := env.size?.getD s.maxFileSize
  evictOnClose := ((env.value? "LUAINDEX_EVICT_ON_CLOSE").map fun word =>
    trueWords.contains (lowerCase word)).getD s.evictOnClose

/-- A size that is set and is no numeral is refused; everything else in the environment is taken as
it is. -/
theorem applyEnvironment_eq (s : Settings) (env : Environment) : s.applyEnvironment env =
    match env.value? "LUAINDEX_MAX_FILE_SIZE", env.size? with
    | some text, none => .error (.sizeNotInteger text)
    | _, _ => .ok (s.withEnvironment env) := by
  unfold applyEnvironment withEnvironment Environment.size?
  cases env.value? "LUAINDEX_LOG_LEVEL" <;> cases env.value? "LUAINDEX_LUA_VERSION" <;>
    cases env.value? "LUAINDEX_EVICT_ON_CLOSE" <;> cases env.value? "LUAINDEX_MAX_FILE_SIZE" with
  | none => rfl
  | some text => cases hn : Numeral.integer? text.toList <;> simp [hn]

theorem applyEnvironment_ok_iff :
    s.applyEnvironment env = .ok s' ↔ env.SizeReads ∧ s' = s.withEnvironment env := by
  have hreads : env.SizeReads ↔ ∀ text, env.value? "LUAINDEX_MAX_FILE_SIZE" = some text →
      ∃ n, Numeral.integer? text.toList = some n := by
    simp only [Environment.SizeReads, Environment.value?_eq_some, and_imp]
  rw [applyEnvironment_eq, hreads, Environment.size?]
  cases env.value? "LUAINDEX_MAX_FILE_SIZE" with
  | none => simp [eq_comm]
  | some text => cases hn : Numeral.integer? text.toList <;> simp [hn, eq_comm]

structure Valid (s : Settings) : Prop where
  luaVersion : s.luaVersion ∈ luaVersions
  logLevel : s.logLevel ∈ logLevels
  maxFileSize : 0 < s.maxFileSize

/-- Three checks, and settings that pass them are not changed. -/
theorem validate_ok_iff : s.validate = .ok s' ↔ s.Valid ∧ s' = s := by
  unfold validate
  constructor
  · intro h
    split at h
    · cases h
    split at h
    · cases h
    split at h
    · cases h
    rename_i hversion hlevel hsize
    cases h
    exact ⟨⟨not_not.mp hversion, not_not.mp hlevel, Int.not_le.mp hsize⟩, rfl⟩
  · intro ⟨h, he⟩
    subst he
    simp [h.luaVersion, h.logLevel, Int.not_le.mpr h.maxFileSize]

def foremost (sources : List (Option α)) (fallback : α) : α := (sources.findSome? id).getD fallback

/-- Each setting from its foremost source, levels in capitals and suffixes in small letters. Suffixes are
never taken from the environment. -/
def effective (global project : Toml.Entries) (env : Environment) : Settings where
  logLevel := upperCase (foremost
    [env.value? "LUAINDEX_LOG_LEVEL", given? project "log_level" Toml.Value.toText,
      given? global "log_level" Toml.Value.toText] default.logLevel)
  luaVersion := foremost
    [env.value? "LUAINDEX_LUA_VERSION", given? project "lua_version" Toml.Value.toText,
      given? global "lua_version" Toml.Value.toText] default.luaVersion
  extensions := (foremost
    [given? project "extensions" toTexts, given? global "extensions" toTexts]
    default.extensions).map lowerCase
  maxFileSize := foremost
    [env.size?, given? project "max_file_size" Toml.Value.toInteger,
      given? global "max_file_size" Toml.Value.toInteger] default.maxFileSize
  evictOnClose := foremost
    [(env.value? "LUAINDEX_EVICT_ON_CLOSE").map fun word => trueWords.contains (lowerCase word),
      given? project "evict_on_close" fun v => .ok v.truth,
      given? global "evict_on_close" fun v => .ok v.truth] default.evictOnClose

theorem foremost_cons (x : Option α) (sources : List (Option α)) (fallback : α) :
    foremost (x :: sources) fallback = x.getD (foremost sources fallback) := by
  cases x <;> rfl

/-- Converting before or after choosing makes no difference, so each layer may convert its own. -/
theorem foremost_map {β : Type} (f : α → β) (sources : List (Option α)) (fallback : α) :
    f (foremost sources fallback) = foremost (sources.map (Option.map f)) (f fallback) := by
  induction sources with
  | nil => rfl
  | cons x sources ih =>
    rw [List.map_cons, foremost_cons, foremost_cons, ← ih]
    cases x <;> rfl

/-- Choosing the foremost value of each setting is laying the sources over each other
from the back. -/
theorem effective_eq (global project : Toml.Entries) (env : Environment) :
    effective global project env =
      ((default.withTable global).withTable project).withEnvironment env := by
  have hlevel : upperCase default.logLevel = default.logLevel := by decide +kernel
  have hextensions : default.extensions.map lowerCase = default.extensions := by decide +kernel
  rw [effective, foremost_map upperCase, foremost_map (List.map lowerCase), hlevel, hextensions]
  simp only [List.map_cons, List.map_nil, foremost_cons, ← given?_toLevel, ← given?_toExtensions]
  rfl

theorem load_outcome (console : Console) (complaint : List Char → String) (global project : File)
    (env : Environment) : (load console complaint global project env).outcome =
      (default.layer console complaint global).2 >>= fun s =>
        (s.layer console complaint project).2 >>= fun s => s.applyEnvironment env >>= validate := by
  unfold load
  rcases default.layer console complaint global with ⟨globalWarning, _ | s⟩
  · rfl
  · simp only [bind, Except.bind]
    rcases s.layer console complaint project with ⟨projectWarning, _ | s⟩ <;> rfl

/-- Loading succeeds exactly if each of its parts does, and then gives the effective settings. -/
theorem load_ok_iff {global project : File} :
    (load console complaint global project env).outcome = .ok s ↔
      ∃ g p, (global.content.Holds g ∧ project.content.Holds p) ∧
        ((global.Announced console complaint ∧ project.Announced console complaint) ∧
          Convertible g ∧ Convertible p ∧ env.SizeReads ∧ (effective g p env).Valid) ∧
        s = effective g p env := by
  simp only [load_outcome, bind_ok_iff, layer_ok_iff, applyEnvironment_ok_iff, validate_ok_iff,
    effective_eq]
  constructor
  · rintro ⟨_, ⟨g, ⟨hga, hg⟩, hgc, rfl⟩, _, ⟨p, ⟨hpa, hp⟩, hpc, rfl⟩, _, ⟨hsize, rfl⟩, hvalid, hs⟩
    exact ⟨g, p, ⟨hg, hp⟩, ⟨⟨hga, hpa⟩, hgc, hpc, hsize, hvalid⟩, hs⟩
  · rintro ⟨g, p, ⟨hg, hp⟩, ⟨⟨hga, hpa⟩, hgc, hpc, hsize, hvalid⟩, hs⟩
    exact ⟨_, ⟨g, ⟨hga, hg⟩, hgc, rfl⟩, _, ⟨p, ⟨hpa, hp⟩, hpc, rfl⟩, _, ⟨hsize, rfl⟩, hvalid, hs⟩

theorem project_ok_iff {loaded : Loaded} {directory : FilePath} {r : Project} :
    loaded.project directory = .ok r ↔ loaded.outcome = .ok r.settings ∧ r.directory = directory := by
  unfold Loaded.project
  obtain ⟨d, s⟩ := r
  cases loaded.outcome <;> simp [Except.map, and_comm, eq_comm]

/-- Settings are loaded exactly if the console shows the warnings about files that are passed over, every
value under a known key of either file can be converted, the environment has no size that is not a number,
and the settings that then hold can be honoured. Each of them is that of its foremost source, and the
project is the directory asked for. -/
theorem load_layered (console : Console) (complaint : List Char → String) (directory : FilePath)
    (global project : File) (env : Environment) (g p : Toml.Entries) (hg : global.content.Holds g)
    (hp : project.content.Holds p) :
    let loaded := (load console complaint global project env).project directory
    ((∃ r, loaded = .ok r) ↔
      (global.Announced console complaint ∧ project.Announced console complaint) ∧
      Convertible g ∧ Convertible p ∧ env.SizeReads ∧ (effective g p env).Valid) ∧
    ∀ r, loaded = .ok r → r = ⟨directory, effective g p env⟩ := by
  intro loaded
  have hloaded (r : Project) : loaded = .ok r ↔
      ((global.Announced console complaint ∧ project.Announced console complaint) ∧
        Convertible g ∧ Convertible p ∧ env.SizeReads ∧ (effective g p env).Valid) ∧
        r = ⟨directory, effective g p env⟩ := by
    obtain ⟨d, s⟩ := r
    rw [project_ok_iff, load_ok_iff, Project.mk.injEq]
    constructor
    · rintro ⟨⟨g', p', ⟨hg', hp'⟩, hall, hs⟩, hd⟩
      rw [hg.unique hg', hp.unique hp']
      exact ⟨hall, hd, hs⟩
    · rintro ⟨hall, hd, hs⟩
      exact ⟨⟨g, p, ⟨hg, hp⟩, hall, hs⟩, hd⟩
  constructor
  · simp only [hloaded, exists_and_left, exists_eq, and_true]
  · intro r hr
    exact ((hloaded r).mp hr).2

def FileContent.written (text : String) : FileContent := .bytes (Utf8.encode text.toList)

/-- A file of the user, behind that of the project for all but the level and the suffixes. -/
def usersFile : File where
  path := ["h", "config.toml"]
  content := .written "log_level = 'debug'\nlua_version = 5.2\nextensions = 'LQ'"

def projectFile : File where
  path := ["w", "config.toml"]
  content := .written "lua_version = '5.3'\nmax_file_size = 24.9\nevict_on_close = []"

def ownVariables : Environment := fun name =>
  [("LUAINDEX_LUA_VERSION", "5.1"), ("LUAINDEX_EVICT_ON_CLOSE", "YES"),
    ("LUAINDEX_LOG_LEVEL", "")].lookup name

/-- Each source has the last word about one setting, and an empty variable about none. -/
theorem load_layered_threefold : ∃ g p, usersFile.content.Holds g ∧ projectFile.content.Holds p ∧
    Convertible g ∧ Convertible p ∧ ownVariables.SizeReads ∧
    effective g p ownVariables = ⟨"DEBUG", "5.1", ["l", "q"], 24, true⟩ ∧
    (load Markup.console (fun _ => "") usersFile projectFile ownVariables).project ["w"] =
      .ok ⟨["w"], effective g p ownVariables⟩ := by
  have hloaded : (load Markup.console (fun _ => "") usersFile projectFile ownVariables).project ["w"] =
      .ok ⟨["w"], ⟨"DEBUG", "5.1", ["l", "q"], 24, true⟩⟩ := by decide +kernel
  obtain ⟨g, p, ⟨hg, hp⟩, _⟩ := load_ok_iff.mp (project_ok_iff.mp hloaded).1
  obtain ⟨hiff, hlayered⟩ := load_layered Markup.console (fun _ => "") ["w"] usersFile projectFile
    ownVariables g p hg hp
  obtain ⟨_, hglobal, hproject, hsize, _⟩ := hiff.mp ⟨_, hloaded⟩
  have he := hlayered _ hloaded
  have heffective := congrArg Project.settings he
  exact ⟨g, p, hg, hp, hglobal, hproject, hsize, heffective.symm, hloaded.trans (congrArg _ he)⟩

/-- A file that is not in its format, in a directory whose name ends a style that nothing has begun. -/
def taggedFile : File where
  path := ["[", "x]", ".luaindex", "config.toml"]
  content := .written "lua_version ="

theorem FileContent.written_malformed {text : String}
    (hdecode : Utf8.decode? (Utf8.encode text.toList) = some text.toList)
    (hparse : (Toml.parse (Newlines.unify text.toList)).map (fun _ => ()) = .error .malformed) :
    (written text).Holds [] := by
  refine .malformed hdecode ?_
  cases h : Toml.parse (Newlines.unify text.toList) with
  | ok entries =>
    rw [h] at hparse
    cases hparse
  | error why =>
    rw [h] at hparse
    exact congrArg Except.error (Except.error.inj hparse)

/-- The file counts as an empty one, and the settings are refused nevertheless. -/
theorem load_taggedFile_refused :
    taggedFile.content.Holds [] ∧ Convertible [] ∧ Environment.SizeReads (fun _ => none) ∧
    (effective [] [] fun _ => none).Valid ∧
    (load Markup.console (fun _ => "Invalid value (at end of document)") ⟨[], .absent⟩ taggedFile
      fun _ => none).outcome.isOk = false := by
  refine ⟨FileContent.written_malformed (by decide +kernel) (by decide +kernel),
    ⟨nofun, nofun, nofun, nofun⟩, nofun, ⟨?_, ?_, ?_⟩, ?_⟩
  · decide +kernel
  · decide +kernel
  · decide +kernel
  · decide +kernel

end Settings

end LuaSymbols
