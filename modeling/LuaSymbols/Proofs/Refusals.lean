import LuaSymbols.Proofs.Layers
import LuaSymbols.Proofs.Transcripts

namespace LuaSymbols

theorem exists_map_ok_iff {ε α β : Type} {f : α → β} {x : Except ε α} :
    (∃ b, f <$> x = .ok b) ↔ ∃ a, x = .ok a := by
  cases x <;> simp [Functor.map, Except.map]

/-- By induction over the list: one part without a value leaves the whole without one. -/
theorem exists_mapM_ok_iff {ε α β : Type} {f : α → Except ε β} (l : List α) :
    (∃ r, l.mapM f = .ok r) ↔ ∀ a ∈ l, ∃ b, f a = .ok b := by
  induction l with
  | nil => simp [pure, Except.pure]
  | cons a l ih =>
    rw [List.mapM_cons, List.forall_mem_cons, ← ih]
    cases f a <;> cases l.mapM f <;> simp [bind, Except.bind, pure, Except.pure]

namespace Toml.Value

/-- No integer of the value, at whatever depth, has too many digits to be shown. -/
inductive Showable : Value → Prop
  | string (s : String) : Showable (.string s)
  | integer {n : Int} : n.natAbs < Nat.pow 10 Numeral.mostDigits → Showable (.integer n)
  | float (x : Binary64) : Showable (.float x)
  | boolean (b : Bool) : Showable (.boolean b)
  | date (d : Date) : Showable (.date d)
  | time (t : Time) : Showable (.time t)
  | moment (d : Date) (t : Time) (offset : Option Int) : Showable (.moment d t offset)
  | array {items : List Value} : (∀ v ∈ items, Showable v) → Showable (.array items)
  | table {entries : Entries} : (∀ key v, (key, v) ∈ entries → Showable v) → Showable (.table entries)

mutual

/-- With the next two theorems by induction over a value: integers that are too long are all that
cannot be shown, at any depth. -/
theorem listing?_isSome_iff (v : Value) : v.listing?.isSome ↔ v.Showable := by
  match v with
  | .string s => exact iff_of_true rfl (.string s)
  | .integer n =>
    rw [listing?, integerText?]
    split
    · rename_i hn
      exact iff_of_true rfl (.integer hn)
    · rename_i hn
      exact iff_of_false nofun fun | .integer h => hn h
  | .float x => exact iff_of_true rfl (.float x)
  | .boolean b => exact iff_of_true rfl (.boolean b)
  | .date d => exact iff_of_true rfl (.date d)
  | .time t => exact iff_of_true rfl (.time t)
  | .moment d t offset => exact iff_of_true rfl (.moment d t offset)
  | .array items =>
    have hitems : (listing? (.array items)).isSome = (listings? items).isSome := by
      rw [listing?]
      cases listings? items <;> rfl
    rw [hitems, listings?_isSome_iff items]
    exact ⟨.array, fun | .array h => h⟩
  | .table entries =>
    have hentries : (listing? (.table entries)).isSome = (entryListings? entries).isSome := by
      rw [listing?]
      cases entryListings? entries <;> rfl
    rw [hentries, entryListings?_isSome_iff entries]
    exact ⟨.table, fun | .table h => h⟩

theorem listings?_isSome_iff (items : List Value) :
    (listings? items).isSome ↔ ∀ v ∈ items, v.Showable := by
  match items with
  | [] => simp [listings?]
  | v :: rest =>
    rw [List.forall_mem_cons, ← listing?_isSome_iff v, ← listings?_isSome_iff rest, listings?]
    cases v.listing? <;> cases listings? rest <;> simp

theorem entryListings?_isSome_iff (entries : Entries) :
    (entryListings? entries).isSome ↔ ∀ key v, (key, v) ∈ entries → v.Showable := by
  match entries with
  | [] => simp [entryListings?]
  | (key, v) :: rest =>
    have hcons : (∀ k x, (k, x) ∈ (key, v) :: rest → x.Showable) ↔
        v.Showable ∧ ∀ k x, (k, x) ∈ rest → x.Showable := by
      simp [or_imp, forall_and]
    rw [hcons, ← listing?_isSome_iff v, ← entryListings?_isSome_iff rest, entryListings?]
    cases v.listing? <;> cases entryListings? rest <;> simp

end

theorem toText_ok_iff (v : Value) : (∃ s, v.toText = .ok s) ↔ v.Showable := by
  have hshown : (∃ s, v.toText = .ok s) ↔ v.text?.isSome := by
    unfold toText
    cases v.text? <;> simp
  have hlisted : v.text?.isSome = v.listing?.isSome := by
    cases v <;> simp only [text?, listing?, Option.isSome_some]
  rw [hshown, hlisted, listing?_isSome_iff]

theorem toLevel_ok_iff (v : Value) : (∃ s, v.toLevel = .ok s) ↔ v.Showable := by
  rw [toLevel, exists_map_ok_iff, toText_ok_iff]

/-- An integer, a truth value, a finite number or a text with a numeral in it. -/
inductive Numeric : Value → Prop
  | integer (n : Int) : Numeric (.integer n)
  | boolean (b : Bool) : Numeric (.boolean b)
  | finite (negative : Bool) (significand : Nat) (exponent : Int) :
      Numeric (.float (.finite negative significand exponent))
  | numeral {s : String} {n : Int} : Numeral.integer? s.toList = some n → Numeric (.string s)

/-- One case for each kind of value; a text needs a numeral in it. -/
theorem toInteger_ok_iff (v : Value) : (∃ n, v.toInteger = .ok n) ↔ v.Numeric := by
  constructor
  · intro ⟨n, h⟩
    unfold toInteger at h
    split at h
    · exact .integer _
    · exact .boolean _
    · cases h
    · rename_i x _
      cases x with
      | finite negative significand exponent => exact .finite ..
      | infinity negative => cases h
      | nan => cases h
    · split at h
      · rename_i hn
        exact .numeral hn
      · cases h
    all_goals cases h
  · intro h
    cases h with
    | integer n => exact ⟨n, rfl⟩
    | boolean b => exact ⟨_, rfl⟩
    | finite negative significand exponent => exact ⟨_, rfl⟩
    | @numeral s n hn => exact ⟨n, by simp only [toInteger, hn]⟩

/-- A text, a table, or a list of values that can be shown. -/
inductive Listable : Value → Prop
  | string (s : String) : Listable (.string s)
  | table (entries : Entries) : Listable (.table entries)
  | array {items : List Value} : (∀ v ∈ items, v.Showable) → Listable (.array items)

/-- The keys of a table are texts already, and so are the characters of a text. -/
theorem toExtensions_ok_iff (v : Value) : (∃ l, v.toExtensions = .ok l) ↔ v.Listable := by
  have hshown (items : List Value) :
      (∃ l, items.mapM toText = .ok l) ↔ ∀ item ∈ items, item.Showable := by
    simp only [exists_mapM_ok_iff, toText_ok_iff]
  rw [Settings.toExtensions_eq, exists_map_ok_iff]
  constructor
  · intro ⟨l, h⟩
    obtain ⟨items, hitems, h⟩ := bind_ok_iff.mp h
    cases v with
    | string s => exact .string s
    | table entries => exact .table entries
    | array items =>
      cases hitems
      exact .array ((hshown items).mp ⟨l, h⟩)
    | _ => cases hitems
  · intro h
    have hparts : ∃ items, v.toItems = .ok items ∧ ∀ item ∈ items, item.Showable := by
      cases h with
      | string s => exact ⟨_, rfl, List.forall_mem_map.mpr fun c _ => .string _⟩
      | table entries => exact ⟨_, rfl, List.forall_mem_map.mpr fun entry _ => .string _⟩
      | array hitems => exact ⟨_, rfl, hitems⟩
    obtain ⟨items, hitems, hall⟩ := hparts
    obtain ⟨l, h⟩ := (hshown items).mpr hall
    exact ⟨l, bind_ok_iff.mpr ⟨items, hitems, h⟩⟩

end Toml.Value

namespace Settings

open Toml (Value)

variable {s : Settings} {console : Console} {complaint : List Char → String} {file : File}
  {t : Toml.Entries} {env : Environment} {e : SettingsError}

/-- Every value under a known key is of a kind that has the form it is needed in. -/
structure WellKinded (t : Toml.Entries) : Prop where
  logLevel : ∀ v, Table.get? t "log_level" = some v → v.Showable
  luaVersion : ∀ v, Table.get? t "lua_version" = some v → v.Showable
  extensions : ∀ v, Table.get? t "extensions" = some v → v.Listable
  maxFileSize : ∀ v, Table.get? t "max_file_size" = some v → v.Numeric

/-- Each setting is looked up once, so the conditions on the five of them are independent. -/
theorem convertible_iff : Convertible t ↔ WellKinded t := by
  constructor
  · intro h
    exact ⟨fun v hv => (Value.toLevel_ok_iff v).mp (h.logLevel v hv),
      fun v hv => (Value.toText_ok_iff v).mp (h.luaVersion v hv),
      fun v hv => (Value.toExtensions_ok_iff v).mp (h.extensions v hv),
      fun v hv => (Value.toInteger_ok_iff v).mp (h.maxFileSize v hv)⟩
  · intro h
    exact ⟨fun v hv => (Value.toLevel_ok_iff v).mpr (h.logLevel v hv),
      fun v hv => (Value.toText_ok_iff v).mpr (h.luaVersion v hv),
      fun v hv => (Value.toExtensions_ok_iff v).mpr (h.extensions v hv),
      fun v hv => (Value.toInteger_ok_iff v).mpr (h.maxFileSize v hv)⟩

/-- The file counts as a table in which every value under a known key is of the right kind, and the
console shows the warning about it, if there is one. -/
def File.Usable (file : File) (console : Console) (complaint : List Char → String) : Prop :=
  file.Announced console complaint ∧ ∃ t, file.content.Holds t ∧ WellKinded t

/-- There are settings that the index can honour, or a message says why there are none. -/
def Handled : Except SettingsError Settings → Prop
  | .ok s => s.Valid
  | .error e => ∃ message, e.message? = some message

theorem exists_layer_iff : (∃ r, (s.layer console complaint file).2 = .ok r) ↔
    file.Usable console complaint := by
  simp only [layer_ok_iff, convertible_iff, File.Usable]
  constructor
  · rintro ⟨_, t, ⟨hannounced, hholds⟩, hkinds, _⟩
    exact ⟨hannounced, t, hholds, hkinds⟩
  · rintro ⟨hannounced, t, hholds, hkinds⟩
    exact ⟨_, t, ⟨hannounced, hholds⟩, hkinds, rfl⟩

theorem passOver_error {reason : String} (h : file.passOver console reason = .error e) :
    e.message? = none := by
  unfold File.passOver at h
  split at h
  · cases h
  · cases h
    rfl

/-- No error that a file causes has a message. -/
theorem read_error (h : file.read console complaint = .error e) : e.message? = none := by
  unfold File.read at h
  split at h
  · cases h
  · exact passOver_error h
  · split at h
    · cases h
      rfl
    · split at h
      · cases h
      · exact passOver_error h
      · cases h
        rfl

/-- A layer fails without a message: nothing in it is meant for the user. -/
theorem layer_error (h : (s.layer console complaint file).2 = .error e) : e.message? = none := by
  unfold layer at h
  split at h
  · rename_i hread
    cases h
    exact read_error hread
  · rename_i t warning hread
    cases ha : s.applyFile t with
    | ok s' => simp [ha, Except.mapError] at h
    | error why =>
      simp only [ha, Except.mapError, Except.error.injEq] at h
      subst h
      rfl

theorem applyEnvironment_error (h : s.applyEnvironment env = .error e) :
    ∃ message, e.message? = some message := by
  rw [applyEnvironment_eq] at h
  split at h
  · cases h
    exact ⟨_, rfl⟩
  · cases h

theorem validate_error (h : s.validate = .error e) : ∃ message, e.message? = some message := by
  unfold validate at h
  split at h
  · cases h
    exact ⟨_, rfl⟩
  split at h
  · cases h
    exact ⟨_, rfl⟩
  split at h
  · cases h
    exact ⟨_, rfl⟩
  · cases h

/-- After the two files only checks are left, and those speak to the user. -/
theorem handled_checked (s : Settings) (env : Environment) :
    Handled (s.applyEnvironment env >>= validate) := by
  cases ha : s.applyEnvironment env with
  | error e => exact applyEnvironment_error ha
  | ok s =>
    change Handled s.validate
    cases hv : s.validate with
    | error e => exact validate_error hv
    | ok s' =>
      obtain ⟨hvalid, rfl⟩ := validate_ok_iff.mp hv
      exact hvalid

theorem not_handled (h : e.message? = none) : ¬ Handled (.error e) := by
  simp [Handled, h]

/-- Whatever the environment holds, the two files decide whether bad settings are told. -/
theorem handled_iff (console : Console) (complaint : List Char → String) (global project : File)
    (env : Environment) : Handled (load console complaint global project env).outcome ↔
      global.Usable console complaint ∧ project.Usable console complaint := by
  -- What stops at a file has no message, and what stops behind both files always has one.
  rw [load_outcome]
  cases hg : (default.layer console complaint global).2 with
  | error e =>
    have hunusable : ¬ global.Usable console complaint := by
      rw [← exists_layer_iff, hg]
      exact nofun
    exact iff_of_false (not_handled (layer_error hg)) fun h => hunusable h.1
  | ok s =>
    have husable : global.Usable console complaint := exists_layer_iff.mp ⟨s, hg⟩
    change Handled ((s.layer console complaint project).2 >>= _) ↔ _
    cases hp : (s.layer console complaint project).2 with
    | error e =>
      have hunusable : ¬ project.Usable console complaint := by
        rw [← exists_layer_iff, hp]
        exact nofun
      exact iff_of_false (not_handled (layer_error hp)) fun h => hunusable h.2
    | ok s' => exact iff_of_true (handled_checked s' env) ⟨husable, exists_layer_iff.mp ⟨s', hp⟩⟩

/-- The settings of a project where no other settings file and no variable is set. -/
def ofProjectFile (text : String) : Loaded :=
  load Markup.console (fun _ => "") ⟨["h", ".config", "luaindex", "config.toml"], .absent⟩
    ⟨[".luaindex", "config.toml"], .written text⟩ fun _ => none

theorem outcome_listedSize :
    (ofProjectFile "max_file_size = []").outcome = .error (.conversion .wrongKind) := by
  decide +kernel

/-- A list for a size is a conversion that nobody catches. -/
theorem listedSize_unhandled : ¬ Handled (ofProjectFile "max_file_size = []").outcome := by
  rw [outcome_listedSize]
  exact not_handled rfl

end Settings

namespace Command

variable {w : World} {directory : FilePath} {e : SettingsError}

def Request.directory? (w : World) : Request → Option FilePath
  | .version => none
  | .scan root _ | .definition _ _ _ root _ => some (w.fileSystem.resolve w.cwd (root.getD "."))
  | .symbols file _ => some (w.fileSystem.resolve w.cwd file).dropLast

def stopFor (e : SettingsError) : Stop :=
  match e.message? with
  | some message => .failed message
  | none => .badSettings e

theorem project_of_error (h : (w.load directory).outcome = .error e) (verbose : Bool)
    (t : Transcript) : ∃ warnings, (w.project directory verbose).run t =
      (.error (stopFor e), { t with warnings := warnings }) := by
  unfold World.project Settings.Loaded.project Action.ofSettings stopFor
  simp only [h, Except.map]
  cases e.message? <;> exact ⟨_, rfl⟩

/-- Every request loads its settings before it does anything else, so all that it has shown are
warnings about files. -/
theorem perform_of_error {request : Request} (hdirectory : request.directory? w = some directory)
    (h : (w.load directory).outcome = .error e) (t : Transcript) :
    ∃ warnings, (perform w request).run t =
      (.error (stopFor e), { t with warnings := warnings }) := by
  cases request with
  | version => cases hdirectory
  | scan root verbose | symbols file verbose | definition file line column root verbose =>
    cases hdirectory
    obtain ⟨warnings, hrun⟩ := project_of_error h verbose t
    refine ⟨warnings, ?_⟩
    simp only [perform, scan, symbols, definition]
    rw [run_bind, hrun]

/-- How a command without settings ends: with a message that is shown, with one that the console refuses,
or with an error that has no message. -/
theorem run_of_error {request : Request} (hdirectory : request.directory? w = some directory)
    (h : (w.load directory).outcome = .error e) :
    (∀ message line, e.message? = some message → w.console (errorLine message) = some line →
      ∃ t, request.run w = .exit 1 t ∧ t.lines = #[.text line]) ∧
    (∀ message, e.message? = some message → w.console (errorLine message) = none →
      request.run w = .crash (.fault (.unprintable (errorLine message)))) ∧
    (e.message? = none → request.run w = .crash (.badSettings e)) := by
  obtain ⟨warnings, hrun⟩ := perform_of_error hdirectory h ⟨#[], #[], #[]⟩
  unfold Request.run
  rw [hrun]
  unfold stopFor
  refine ⟨?_, ?_, ?_⟩
  · intro message line hm hline
    simp [hm, hline]
  · intro message hm hline
    simp [hm, hline]
  · intro hm
    simp [hm]

/-- Whatever the environment holds, there are settings that the index can honour or a message about them
exactly if both files are usable. A command that goes by these files and has no settings writes the
message and ends with exit code 1 in just these cases, unless the console refuses the message: then it
ends with that error. In all other cases it ends with an error that it does not report. -/
theorem refusal_reported_iff (console : Console) (complaint : List Char → String)
    (global project : Settings.File) (env : Settings.Environment) :
    let loaded := Settings.load console complaint global project env
    let usable := global.Usable console complaint ∧ project.Usable console complaint
    (Settings.Handled loaded.outcome ↔ usable) ∧
    ∀ (w : World) (request : Request) (directory : FilePath) (e : SettingsError),
      request.directory? w = some directory → w.console = console → w.load directory = loaded →
      loaded.outcome = .error e →
      ((∃ message line t, e.message? = some message ∧ console (errorLine message) = some line ∧
        request.run w = .exit 1 t ∧ t.lines = #[.text line]) ↔
          usable ∧ ∀ message, e.message? = some message → (console (errorLine message)).isSome = true) ∧
      ((∃ message, e.message? = some message ∧
        request.run w = .crash (.fault (.unprintable (errorLine message)))) ↔
          usable ∧ ∃ message, e.message? = some message ∧ console (errorLine message) = none) ∧
      (request.run w = .crash (.badSettings e) ↔ ¬ usable) := by
  intro loaded usable
  have hhandled : Settings.Handled loaded.outcome ↔ usable :=
    Settings.handled_iff console complaint global project env
  refine ⟨hhandled, ?_⟩
  rintro w request directory e hdirectory rfl hload h
  obtain ⟨hshown, hrefused, hcrashed⟩ := run_of_error hdirectory (hload ▸ h)
  rw [← hhandled, h]
  -- The three ways to end exclude each other, so each is decided by the message and the console.
  cases hm : e.message? with
  | none =>
    have hh := Settings.not_handled hm
    refine ⟨iff_of_false ?_ fun h => hh h.1, iff_of_false ?_ fun h => hh h.1,
      iff_of_true (hcrashed hm) hh⟩
    · rintro ⟨message, line, t, hsome, _⟩
      cases hsome
    · rintro ⟨message, hsome, _⟩
      cases hsome
  | some message =>
    have hh : Settings.Handled (.error e) := ⟨message, hm⟩
    cases hline : w.console (errorLine message) with
    | some line =>
      obtain ⟨t, hrun, hlines⟩ := hshown message line hm hline
      refine ⟨iff_of_true ⟨message, line, t, rfl, hline, hrun, hlines⟩ ⟨hh, ?_⟩,
        iff_of_false ?_ ?_, iff_of_false ?_ (not_not_intro hh)⟩
      · rintro _ ⟨⟩
        simp [hline]
      · rw [hrun]
        exact nofun
      · rintro ⟨_, _, ⟨⟩, hnone⟩
        cases hline.symm.trans hnone
      · rw [hrun]
        exact nofun
    | none =>
      have hrun := hrefused message hm hline
      refine ⟨iff_of_false ?_ ?_, iff_of_true ⟨message, rfl, hrun⟩ ⟨hh, message, rfl, hline⟩,
        iff_of_false ?_ (not_not_intro hh)⟩
      · rintro ⟨_, _, _, ⟨⟩, hsome, _⟩
        cases hline.symm.trans hsome
      · rintro ⟨_, hall⟩
        simpa [hline] using hall message rfl
      · rw [hrun]
        exact nofun

def settledWorld (text : String) : World where
  fileSystem :=
    ⟨.directory [(".luaindex", .directory [("config.toml",
      .file ⟨Utf8.encode text.toList, none⟩)])], none⟩
  cwd := []
  home := ["h"]
  environment _ := none
  grammar _ := none
  console := Markup.console
  complaint _ := ""

theorem settledWorld_directory (text : String) :
    (Request.scan none false).directory? (settledWorld text) = some [] := by
  have hsplit : splitPath "." = ["."] := by decide
  simp [Request.directory?, FileSystem.resolve, hsplit, FileSystem.follow, FileSystem.mostLinks,
    settledWorld, isAbsolute]

/-- The user has no settings file in this world, and no variables. -/
theorem settledWorld_load (text : String) :
    (settledWorld text).load [] = Settings.ofProjectFile text := by
  have hglobal : (settledWorld text).settingsFile ((settledWorld text).home ++ userSettingsPath) =
      ⟨["h", ".config", "luaindex", "config.toml"], .absent⟩ := by
    simp [World.settingsFile, FileSystem.file?, FileSystem.lookup?, FileSystem.follow, settledWorld,
      userSettingsPath, FileSystem.mostLinks, Entry.find?]
  have hproject : (settledWorld text).settingsFile ([] ++ settingsPath) =
      ⟨[".luaindex", "config.toml"], .written text⟩ := by
    simp [World.settingsFile, FileSystem.file?, FileSystem.lookup?, FileSystem.follow, settledWorld,
      settingsPath, FileSystem.mostLinks, Entry.find?, RegularFile.read, Settings.FileContent.written]
  rw [World.load, hglobal, hproject]
  rfl

/-- A size of zero is reported, a list for a size is not, and a version that ends a style which nothing
has begun cannot be. -/
theorem refusal_reported_iff_sizes :
    (∃ t, (Request.scan none false).run (settledWorld "max_file_size = 0") = .exit 1 t ∧
      t.lines = #[.text "Error: max_file_size must be positive."]) ∧
    (Request.scan none false).run (settledWorld "max_file_size = []") =
      .crash (.badSettings (.conversion .wrongKind)) ∧
    ∃ message, (Request.scan none false).run (settledWorld "lua_version = '[/x]'") =
      .crash (.fault (.unprintable (errorLine message))) := by
  have hsettled (text : String) (e : SettingsError)
      (h : (Settings.ofProjectFile text).outcome = .error e) :
      ((∃ message line t, e.message? = some message ∧ Markup.console (errorLine message) = some line ∧
        (Request.scan none false).run (settledWorld text) = .exit 1 t ∧ t.lines = #[.text line]) ↔
        Settings.Handled (.error e) ∧
          ∀ message, e.message? = some message → (Markup.console (errorLine message)).isSome = true) ∧
      ((∃ message, e.message? = some message ∧ (Request.scan none false).run (settledWorld text) =
          .crash (.fault (.unprintable (errorLine message)))) ↔
        Settings.Handled (.error e) ∧
          ∃ message, e.message? = some message ∧ Markup.console (errorLine message) = none) ∧
      ((Request.scan none false).run (settledWorld text) = .crash (.badSettings e) ↔
        ¬ Settings.Handled (.error e)) := by
    obtain ⟨hhandled, hrun⟩ := refusal_reported_iff Markup.console (fun _ => "")
      ⟨["h", ".config", "luaindex", "config.toml"], .absent⟩
      ⟨[".luaindex", "config.toml"], .written text⟩ fun _ => none
    rw [← h]
    simp only [Settings.ofProjectFile, hhandled]
    exact hrun (settledWorld text) (.scan none false) [] e (settledWorld_directory text) rfl
      (settledWorld_load text) h
  refine ⟨?_, ?_, ?_⟩
  · have hzero : (Settings.ofProjectFile "max_file_size = 0").outcome = .error .sizeNotPositive := by
      decide +kernel
    have hline : Markup.console (errorLine "max_file_size must be positive.") =
        some "Error: max_file_size must be positive." := by decide +kernel
    obtain ⟨_, line, t, ⟨⟩, hshown, hexit, hlines⟩ := (hsettled _ _ hzero).1.mpr
      ⟨⟨_, rfl⟩, by rintro _ ⟨⟩; rw [hline]; rfl⟩
    cases hline.symm.trans hshown
    exact ⟨t, hexit, hlines⟩
  · exact (hsettled _ _ Settings.outcome_listedSize).2.2.mpr (Settings.not_handled rfl)
  · have hversion : (Settings.ofProjectFile "lua_version = '[/x]'").outcome =
        .error (.unsupportedVersion "[/x]") := by decide +kernel
    have hline : ∀ message, (SettingsError.unsupportedVersion "[/x]").message? = some message →
        Markup.console (errorLine message) = none := by decide +kernel
    obtain ⟨message, _, hcrash⟩ := (hsettled _ _ hversion).2.1.mpr ⟨⟨_, rfl⟩, _, rfl, hline _ rfl⟩
    exact ⟨message, hcrash⟩

end Command

end LuaSymbols
