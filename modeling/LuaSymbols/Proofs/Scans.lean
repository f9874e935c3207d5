import Mathlib.Data.List.Lex
import Mathlib.Data.String.Basic
import LuaSymbols.Scan

namespace LuaSymbols

theorem nameBefore_iff {a b : String} : nameBefore a b = true ↔ a < b := by
  have hchar : (fun c d : Char => c.toNat.blt d.toNat = true) = (· < ·) := by
    funext c d
    rw [Nat.blt_eq]
    rfl
  rw [nameBefore, List.lex_eq_true_iff_lex, hchar, String.lt_iff_toList_lt]
  rfl

theorem pathBefore_iff {p q : List String} : pathBefore p q = true ↔ p < q := by
  have hname : (fun a b => nameBefore a b = true) = (· < ·) := by
    funext a b
    exact propext nameBefore_iff
  rw [pathBefore, List.lex_eq_true_iff_lex, hname]
  rfl

namespace SourceFile

theorem sort_perm (files : List SourceFile) : (sort files).Perm files := List.mergeSort_perm _ _

/-- Files at different paths are strictly in order once they are sorted. -/
theorem sort_pairwise {files : List SourceFile} (h : files.Pairwise fun f g => f.path ≠ g.path) :
    (sort files).Pairwise fun f g => f.path < g.path := by
  have hle : ∀ f g : SourceFile, (!pathBefore g.path f.path) = true ↔ f.path ≤ g.path := by
    intro f g
    rw [Bool.not_eq_true', ← Bool.not_eq_true, pathBefore_iff, not_lt]
  have hsorted : (sort files).Pairwise fun f g => (!pathBefore g.path f.path) = true := by
    apply List.pairwise_mergeSort
    · intro f g k hfg hgk
      rw [hle] at *
      exact hfg.trans hgk
    · intro f g
      rw [Bool.or_eq_true, hle, hle]
      exact le_total f.path g.path
  have hdistinct : (sort files).Pairwise fun f g => f.path ≠ g.path :=
    (sort_perm files).symm.pairwise h fun hne => hne.symm
  refine (hsorted.and hdistinct).imp ?_
  rintro f g ⟨hfg, hne⟩
  exact lt_of_le_of_ne ((hle f g).mp hfg) hne

theorem nodup_of_pairwise {files : List SourceFile}
    (h : files.Pairwise fun f g => f.path < g.path) : files.Nodup := by
  refine h.imp ?_
  rintro f _ hlt rfl
  exact lt_irrefl _ hlt

/-- Sorted files are told by their members. -/
theorem sort_eq_iff {files sorted : List SourceFile}
    (h : files.Pairwise fun f g => f.path ≠ g.path) :
    sort files = sorted ↔
      sorted.Pairwise (fun f g => f.path < g.path) ∧ ∀ f, f ∈ sorted ↔ f ∈ files := by
  have hsort := sort_pairwise h
  constructor
  · rintro rfl
    exact ⟨hsort, fun f => (sort_perm files).mem_iff⟩
  · rintro ⟨hsorted, hmem⟩
    have hperm : (sort files).Perm sorted := by
      rw [List.perm_ext_iff_of_nodup (nodup_of_pairwise hsort) (nodup_of_pairwise hsorted)]
      intro f
      rw [(sort_perm files).mem_iff, hmem]
    refine hperm.eq_of_pairwise ?_ hsort hsorted
    intro f g _ _ hfg hgf
    exact absurd hgf hfg.asymm

end SourceFile

/-- Rules pass over a path: some rule is about it, and the last such rule does not bring files back. -/
def Ignored (rules : List IgnoreRule) (path : List String) : Prop :=
  ∃ before r after, rules = before ++ r :: after ∧ r.applies (rulePath path) = true ∧
    (∀ later ∈ after, later.applies (rulePath path) = false) ∧ r.negated = false

section

variable {rules : List IgnoreRule} {path : List String}

/-- A rule in front decides only about paths that no later rule is about. -/
theorem ignored_cons {r : IgnoreRule} : Ignored (r :: rules) path ↔
    Ignored rules path ∨ r.applies (rulePath path) = true ∧
      (∀ later ∈ rules, later.applies (rulePath path) = false) ∧ r.negated = false := by
  constructor
  · rintro ⟨before, last, after, he, hlast⟩
    cases before with
    | nil =>
      obtain ⟨rfl, rfl⟩ := List.cons.inj he
      exact .inr hlast
    | cons _ before =>
      obtain ⟨rfl, rfl⟩ := List.cons.inj he
      exact .inl ⟨before, last, after, rfl, hlast⟩
  · rintro (⟨before, last, after, rfl, hlast⟩ | hlast)
    · exact ⟨r :: before, last, after, rfl, hlast⟩
    · exact ⟨[], r, rules, rfl, hlast⟩

/-- Going through the rules with a verdict in hand leaves the last rule that applies to decide. -/
theorem foldl_verdict (rules : List IgnoreRule) (path : List String) (verdict : Bool) :
    rules.foldl (fun ignored r => if r.applies (rulePath path) then !r.negated else ignored) verdict =
        true ↔
      Ignored rules path ∨ (∀ r ∈ rules, r.applies (rulePath path) = false) ∧ verdict = true := by
  induction rules generalizing verdict with
  | nil => simp [Ignored]
  | cons r rules ih =>
    -- A rule that applies is the verdict for those after it; it stands only if none of them applies.
    rw [List.foldl_cons, ih, ignored_cons]
    cases happlies : r.applies (rulePath path) <;> simp [happlies]

theorem isIgnored_iff : isIgnored rules path = true ↔ Ignored rules path := by
  rw [isIgnored, foldl_verdict]
  simp

end

/-- Every directory on a way down is entered, the one where the way starts included. -/
def Criteria.Opens (c : Criteria) (path below : List String) : Prop :=
  ∀ above rest, below = above ++ rest → rest ≠ [] → c.enters (path ++ above)

namespace Criteria

variable {c : Criteria} {path rest : List String} {name : String}

theorem opens_nil : c.Opens path [] := by
  intro above rest he hrest
  exact absurd (List.append_eq_nil_iff.mp he.symm).2 hrest

/-- A path is open if its first directory is entered and the rest is open below it. -/
theorem opens_cons : c.Opens path (name :: rest) ↔ c.enters path ∧ c.Opens (path ++ [name]) rest := by
  constructor
  · intro h
    refine ⟨by simpa using h [] (name :: rest) rfl (by simp), ?_⟩
    rintro above rest rfl hrest
    simpa using h (name :: above) rest rfl hrest
  · rintro ⟨hpath, hbelow⟩ above rest' he hrest
    cases above with
    | nil => simpa using hpath
    | cons _ above =>
      obtain ⟨rfl, rfl⟩ := List.cons.inj he
      simpa using hbelow above rest' rfl hrest

/-- The same, said of all directories on the way and not of the file itself. -/
theorem opens_inside {below : List String} :
    (∀ name rest, below = name :: rest → c.Opens (path ++ [name]) rest) ↔
      ∀ above name rest, below = above ++ name :: rest → rest ≠ [] →
        c.enters (path ++ above ++ [name]) := by
  constructor
  · rintro h above name rest rfl hrest
    cases above with
    | nil => simpa using h name rest rfl [] rest rfl hrest
    | cons first above =>
      simpa using h first (above ++ name :: rest) rfl (above ++ [name]) rest (by simp) hrest
  · rintro h name rest rfl above rest' rfl hrest
    rcases above.eq_nil_or_concat with rfl | ⟨above, last, rfl⟩
    · simpa using h [] name rest' rfl hrest
    · simpa using h (name :: above) last rest' (by simp) hrest

end Criteria

namespace Entry

/-- What stands at a path below an entry. -/
inductive Leads : Entry → List String → Entry → Prop
  | here (e : Entry) : Leads e [] e
  | inside {entries : List (String × Entry)} {name : String} {e found : Entry} {rest : List String} :
      (name, e) ∈ entries → Leads e rest found → Leads (.directory entries) (name :: rest) found

/-- No directory at or below an entry lists a name twice. -/
inductive Proper : Entry → Prop
  | file (f : RegularFile) : Proper (.file f)
  | link (target : String) : Proper (.link target)
  | directory {entries : List (String × Entry)} :
      (entries.map (·.1)).Nodup → (∀ entry ∈ entries, entry.2.Proper) → Proper (.directory entries)

theorem proper_directory {entries : List (String × Entry)} : Proper (.directory entries) ↔
    (entries.map (·.1)).Nodup ∧ ∀ entry ∈ entries, entry.2.Proper := by
  constructor
  · rintro (_ | _ | ⟨hnames, hproper⟩)
    exact ⟨hnames, hproper⟩
  · rintro ⟨hnames, hproper⟩
    exact .directory hnames hproper

def size? (linked : Option Nat) : Entry → Option Nat
  | .file f => some f.size
  | .link _ => linked
  | .directory _ => none

/-- A file some way below an entry is of the right kind and size and is not passed over for its path. -/
def Sourced (c : Criteria) (linkSize? : List String → Option Nat) (path below : List String) (size : Nat)
    (e : Entry) : Prop :=
  (∃ found, e.Leads below found ∧ found.size? (linkSize? (path ++ below)) = some size) ∧
    c.takes (path ++ below) size

theorem leads_nil {e found : Entry} : e.Leads [] found ↔ found = e := by
  constructor
  · rintro ⟨⟩
    rfl
  · rintro rfl
    exact .here found

theorem leads_cons {e found : Entry} {name : String} {rest : List String} :
    e.Leads (name :: rest) found ↔
      ∃ entries inner, e = .directory entries ∧ (name, inner) ∈ entries ∧ inner.Leads rest found := by
  constructor
  · rintro (_ | ⟨hentry, hrest⟩)
    exact ⟨_, _, rfl, hentry, hrest⟩
  · rintro ⟨entries, inner, rfl, hentry, hrest⟩
    exact .inside hentry hrest

variable {c : Criteria} {linkSize? : List String → Option Nat} {path : List String}

/-- A file, or a link to one, is taken or left. A link to a directory has no size and is left. -/
theorem sources_leaf {e : Entry} (he : ∀ entries, e ≠ .directory entries) :
    e.sources c linkSize? path =
      (((e.size? (linkSize? path)).filter (c.takes path)).map (SourceFile.mk path)).toList := by
  cases e with
  | file f => by_cases htakes : c.takes path f.size <;> simp [sources, size?, Option.filter, htakes]
  | link target =>
    rw [sources, size?]
    cases linkSize? path with
    | none => rfl
    | some size => by_cases htakes : c.takes path size <;> simp [Option.filter, htakes]
  | directory entries => exact absurd rfl (he entries)

theorem mem_sources_leaf {e : Entry} (he : ∀ entries, e ≠ .directory entries) {f : SourceFile} :
    f ∈ e.sources c linkSize? path ↔
      f.path = path ∧ e.size? (linkSize? path) = some f.size ∧ c.takes path f.size := by
  rw [sources_leaf he, Option.mem_toList, Option.map_eq_some_iff]
  constructor
  · rintro ⟨size, hsize, rfl⟩
    exact ⟨rfl, Option.filter_eq_some_iff.mp hsize⟩
  · rintro ⟨rfl, hsize⟩
    exact ⟨f.size, Option.filter_eq_some_iff.mpr hsize, rfl⟩

theorem sourcesAmong_eq_flatMap (entries : List (String × Entry)) :
    sourcesAmong c linkSize? path entries =
      entries.flatMap fun entry => entry.2.sources c linkSize? (path ++ [entry.1]) := by
  induction entries with
  | nil => rfl
  | cons entry entries ih => rw [sourcesAmong, ih, List.flatMap_cons]

theorem mem_sources_directory {entries : List (String × Entry)} {f : SourceFile} :
    f ∈ (directory entries).sources c linkSize? path ↔
      c.enters path ∧ f ∈ sourcesAmong c linkSize? path entries := by
  rw [sources]
  split <;> simp_all

/-- What is found below an entry has the path of the entry in front. -/
theorem Proper.path_extends {e : Entry} (h : e.Proper) {path : List String} {f : SourceFile}
    (hf : f ∈ e.sources c linkSize? path) : path <+: f.path := by
  induction h generalizing path with
  | file | link =>
    rw [mem_sources_leaf (by simp)] at hf
    exact hf.1 ▸ List.prefix_refl _
  | directory _ _ ih =>
    rw [mem_sources_directory, sourcesAmong_eq_flatMap] at hf
    obtain ⟨entry, hentry, hf⟩ := List.mem_flatMap.mp hf.2
    exact (List.prefix_append path [entry.1]).trans (ih entry hentry hf)

section Directory

variable {entries : List (String × Entry)} (hproper : ∀ entry ∈ entries, entry.2.Proper)
include hproper

/-- The first name below a directory tells in which of its entries a file was found. -/
theorem mem_sourcesAmong_cons {below : List String} {size : Nat} :
    ⟨path ++ below, size⟩ ∈ sourcesAmong c linkSize? path entries ↔
      ∃ name rest e, below = name :: rest ∧ (name, e) ∈ entries ∧
        ⟨path ++ [name] ++ rest, size⟩ ∈ e.sources c linkSize? (path ++ [name]) := by
  rw [sourcesAmong_eq_flatMap, List.mem_flatMap]
  constructor
  · rintro ⟨⟨name, e⟩, hentry, hf⟩
    obtain ⟨rest, he⟩ := (hproper _ hentry).path_extends hf
    obtain rfl : name :: rest = below := by simpa using he
    exact ⟨name, rest, e, rfl, hentry, by simpa using hf⟩
  · rintro ⟨name, rest, e, rfl, hentry, hf⟩
    exact ⟨(name, e), hentry, by simpa using hf⟩

/-- The list case of the theorem below, from its entries. -/
theorem mem_sourcesAmong
    (hparts : ∀ entry ∈ entries, ∀ {path below : List String} {size : Nat},
      ⟨path ++ below, size⟩ ∈ entry.2.sources c linkSize? path ↔
        entry.2.Sourced c linkSize? path below size ∧ c.Opens path below)
    {below : List String} {size : Nat} :
    ⟨path ++ below, size⟩ ∈ sourcesAmong c linkSize? path entries ↔
      (directory entries).Sourced c linkSize? path below size ∧
      ∀ name rest, below = name :: rest → c.Opens (path ++ [name]) rest := by
  rw [mem_sourcesAmong_cons hproper]
  constructor
  · rintro ⟨name, rest, e, rfl, hentry, hf⟩
    rw [hparts _ hentry] at hf
    obtain ⟨⟨⟨found, hleads, hsize⟩, htakes⟩, hopens⟩ := hf
    rw [List.append_assoc] at hsize htakes
    refine ⟨⟨⟨found, .inside hentry hleads, hsize⟩, htakes⟩, ?_⟩
    rintro _ _ ⟨⟩
    exact hopens
  · rintro ⟨⟨⟨found, hleads, hsize⟩, htakes⟩, hopens⟩
    cases hleads with
    | here => cases hsize
    | @inside _ name e _ rest hentry hleads =>
      refine ⟨name, rest, e, rfl, hentry, ?_⟩
      rw [hparts _ hentry, Sourced, List.append_assoc]
      exact ⟨⟨⟨found, hleads, hsize⟩, htakes⟩, hopens name rest rfl⟩

/-- Files of one entry differ by hypothesis, files of two entries in the name of the entry. -/
theorem sourcesAmong_pairwise (hnames : (entries.map (·.1)).Nodup)
    (hparts : ∀ entry ∈ entries, (entry.2.sources c linkSize? (path ++ [entry.1])).Pairwise
      fun f g => f.path ≠ g.path) :
    (sourcesAmong c linkSize? path entries).Pairwise fun f g => f.path ≠ g.path := by
  rw [sourcesAmong_eq_flatMap, List.pairwise_flatMap]
  refine ⟨hparts, (List.pairwise_map.mp hnames).imp_of_mem ?_⟩
  -- Files from two entries differ in the names of these.
  intro entry entry' hentry hentry' hne f hf g hg he
  have hpath := (hproper entry hentry).path_extends hf
  have hpath' := (hproper entry' hentry').path_extends hg
  rw [← he] at hpath'
  have hsame := (List.prefix_of_prefix_length_le hpath hpath' (by simp)).eq_of_length (by simp)
  exact hne (by simpa using hsame)

end Directory

theorem Proper.sources_pairwise {e : Entry} (h : e.Proper) (path : List String) :
    (e.sources c linkSize? path).Pairwise fun f g => f.path ≠ g.path := by
  induction h generalizing path with
  | file | link =>
    rw [sources_leaf (by simp)]
    cases Option.map _ _ <;> simp
  | directory hnames hproper ih =>
    rw [sources]
    split
    · exact sourcesAmong_pairwise hproper hnames fun entry hentry => ih entry hentry _
    · exact .nil

/-- The source files below an entry, without a search for them. -/
theorem Proper.mem_sources {e : Entry} (h : e.Proper) {path below : List String} {size : Nat} :
    ⟨path ++ below, size⟩ ∈ e.sources c linkSize? path ↔
      e.Sourced c linkSize? path below size ∧ c.Opens path below := by
  -- A directory is looked into at once, so the rest of the way starts in one of its entries.
  induction h generalizing path below size with
  | file | link =>
    rw [mem_sources_leaf (by simp), Sourced]
    cases below with
    | nil => simp [leads_nil, Criteria.opens_nil]
    | cons name rest => simp [leads_cons]
  | directory _ hproper ih =>
    rw [mem_sources_directory, mem_sourcesAmong hproper ih]
    cases below with
    | nil => simp [Sourced, leads_nil, size?]
    | cons name rest =>
      rw [Criteria.opens_cons]
      constructor
      · rintro ⟨hpath, hsourced, hopens⟩
        exact ⟨hsourced, hpath, hopens name rest rfl⟩
      · rintro ⟨hsourced, hpath, hopens⟩
        refine ⟨hpath, hsourced, ?_⟩
        rintro _ _ ⟨⟩
        exact hopens

end Entry

/-- What makes a file below a directory a source file: its suffix in either case, its size, the rules
about its own path, and for every directory above it the name of the directory and the rules about
that. -/
structure Settings.Wants (s : Settings) (rules : List IgnoreRule) (f : SourceFile) : Prop where
  suffix : ∃ extension ∈ s.extensions,
    lowerCase extension = lowerCase (suffixOf (f.path.getLastD ""))
  size : (f.size : Int) ≤ s.maxFileSize
  kept : ¬ Ignored rules f.path
  entered : ∀ above name below, f.path = above ++ name :: below → below ≠ [] →
    name.toList.head? ≠ some '.' ∧ name ∉ toolDirectories ∧ ¬ Ignored rules (above ++ [name])

namespace Settings

def criteria (s : Settings) (rules : List IgnoreRule) : Criteria :=
  ⟨s.extensions.map lowerCase, s.maxFileSize, rules⟩

variable {s : Settings} {rules : List IgnoreRule}

theorem criteria_takes {path : List String} {size : Nat} : (s.criteria rules).takes path size ↔
    (∃ extension ∈ s.extensions, lowerCase extension = lowerCase (suffixOf (path.getLastD ""))) ∧
      (size : Int) ≤ s.maxFileSize ∧ ¬ Ignored rules path := by
  rw [Criteria.takes, Bool.and_eq_true, Bool.and_eq_true, decide_eq_true_eq, Bool.not_eq_true',
    ← Bool.not_eq_true, isIgnored_iff, and_assoc]
  simp [criteria]

theorem criteria_enters {above : List String} {name : String} :
    (s.criteria rules).enters (above ++ [name]) ↔
      name.toList.head? ≠ some '.' ∧ name ∉ toolDirectories ∧ ¬ Ignored rules (above ++ [name]) := by
  simp [Criteria.enters, criteria, isToolDirectory, ← isIgnored_iff, and_assoc]

end Settings

namespace Scanner

def sizeBelow? (fs : FileSystem) (project : FilePath) (path : List String) : Option Nat :=
  (fs.file? (project ++ path)).map (·.size)

/-- A file below a directory, or a link to a file, and its size. -/
def Lists (fs : FileSystem) (project : FilePath) (entries : List (String × Entry)) (f : SourceFile) :
    Prop :=
  ∃ found, (Entry.directory entries).Leads f.path found ∧
    found.size? (sizeBelow? fs project f.path) = some f.size

variable {fs : FileSystem} {project : FilePath} {entries : List (String × Entry)}
  {rules : List IgnoreRule}

theorem ofDirectory_eq (hdir : fs.directory? project = some entries)
    (hrules : rulesOf fs project = .ok rules) (settings : Settings) :
    ofDirectory fs project settings = .ok ⟨fs, project, settings.criteria rules⟩ := by
  simp only [ofDirectory, hdir, hrules]
  rfl

theorem scan_eq (hdir : fs.directory? project = some entries) (hwalk : fs.walkRefusal = none)
    (c : Criteria) : scan ⟨fs, project, c⟩ =
      .ok (SourceFile.sort (Entry.sourcesAmong c (sizeBelow? fs project) [] entries)) := by
  simp only [scan, hwalk, hdir]
  rfl

/-- What the search collects before sorting, in terms of what the file system lists and what the
settings want. -/
theorem mem_sources (hproper : ∀ entry ∈ entries, entry.2.Proper) {settings : Settings}
    {f : SourceFile} :
    f ∈ Entry.sourcesAmong (settings.criteria rules) (sizeBelow? fs project) [] entries ↔
      Lists fs project entries f ∧ settings.Wants rules f := by
  change SourceFile.mk ([] ++ f.path) f.size ∈ _ ↔ _
  rw [Entry.mem_sourcesAmong hproper fun entry hentry => (hproper entry hentry).mem_sources,
    Criteria.opens_inside, Entry.Sourced]
  simp only [List.nil_append, Settings.criteria_enters, Settings.criteria_takes]
  constructor
  · rintro ⟨⟨hfound, hsuffix, hsize, hkept⟩, hentered⟩
    exact ⟨hfound, hsuffix, hsize, hkept, hentered⟩
  · rintro ⟨hfound, hsuffix, hsize, hkept, hentered⟩
    exact ⟨⟨hfound, hsuffix, hsize, hkept⟩, hentered⟩

/-- A search finds the source files, all of them and nothing else, and it finds them in the strict order
of their paths, in whatever order the directories list their entries. -/
theorem scan_exact (fs : FileSystem) (project : FilePath) (settings : Settings)
    (entries : List (String × Entry)) (rules : List IgnoreRule)
    (hdir : fs.directory? project = some entries) (hproper : (Entry.directory entries).Proper)
    (hrules : rulesOf fs project = .ok rules) (hwalk : fs.walkRefusal = none) :
    ∃ s, ofDirectory fs project settings = .ok s ∧ (∃ files, s.scan = .ok files) ∧
      ∀ files, s.scan = .ok files ↔
        files.Pairwise (fun f g => f.path < g.path) ∧
        ∀ f, f ∈ files ↔ Lists fs project entries f ∧ settings.Wants rules f := by
  obtain ⟨hnames, hparts⟩ := Entry.proper_directory.mp hproper
  have hscan := scan_eq hdir hwalk (settings.criteria rules)
  refine ⟨_, ofDirectory_eq hdir hrules settings, ⟨_, hscan⟩, fun files => ?_⟩
  rw [hscan, Except.ok.injEq, SourceFile.sort_eq_iff]
  · simp only [mem_sources hparts]
  · exact Entry.sourcesAmong_pairwise hparts hnames fun entry hentry =>
      (hparts entry hentry).sources_pairwise _

def written (text : String) : Entry := .file ⟨Utf8.encode text.toList, none⟩

/-- A directory and some files are passed over, and files of one name are brought back. -/
def litterLines : String := "gen/\n*_t.lua\n!k_t.lua"

def litter : List (String × Entry) :=
  [("z.LUA", written "z()"), (ignoreFile, written litterLines),
   ("k_t.lua", written "k()"), ("a_t.lua", written "a()"), ("big.lua", written "big('big')"),
   ("gen", .directory [("k_t.lua", written "k()")]), (".hid", .directory [("h.lua", written "h()")]),
   ("build", .directory [("o.lua", written "o()")]),
   ("d", .directory [("b.txt", written "b"), ("b.lua", written "bb()")])]

def litterRules : List IgnoreRule :=
  [⟨false, false, "gen".toList⟩, ⟨false, false, "*_t.lua".toList⟩, ⟨true, false, "k_t.lua".toList⟩]

def litterSettings : Settings := { Settings.default with extensions := [".Lua"], maxFileSize := 8 }

/-- Hidden directories, rules and their exceptions, a suffix in capitals and a file that is too
large. -/
theorem scan_exact_litter :
    let fs : FileSystem := ⟨.directory litter, none⟩
    fs.directory? [] = some litter ∧ (Entry.directory litter).Proper ∧
    rulesOf fs [] = .ok litterRules ∧
    ∃ s, ofDirectory fs [] litterSettings = .ok s ∧
      s.scan = .ok [⟨["d", "b.lua"], 4⟩, ⟨["k_t.lua"], 3⟩, ⟨["z.LUA"], 3⟩] := by
  intro fs
  have hdir : fs.directory? [] = some litter := by
    simp [FileSystem.directory?, FileSystem.lookup?, FileSystem.follow, fs, Entry.find?]
  have hproper : (Entry.directory litter).Proper := by
    have hwritten (text : String) : (written text).Proper := .file _
    simp [litter, Entry.proper_directory, hwritten, ignoreFile]
  have hrules : rulesOf fs [] = .ok litterRules := by
    have hfollow : fs.follow FileSystem.mostLinks [] [ignoreFile] = [ignoreFile] := by
      simp [FileSystem.follow, FileSystem.mostLinks, ignoreFile, fs, Entry.find?, litter,
        written]
    have hfile : fs.file? [ignoreFile] = some ⟨Utf8.encode litterLines.toList, none⟩ := by
      rw [FileSystem.file?, FileSystem.lookup?, hfollow]
      rfl
    have hlines : IgnoreRule.ofBytes (Utf8.encode litterLines.toList) = litterRules := by
      decide +kernel
    rw [rulesOf, List.nil_append, hfile]
    exact congrArg Except.ok hlines
  refine ⟨hdir, hproper, hrules, ?_⟩
  obtain ⟨s, hs, _, hscan⟩ := scan_exact fs [] litterSettings litter litterRules hdir hproper hrules rfl
  refine ⟨s, hs, (hscan _).mpr ⟨by decide +kernel, fun f => ?_⟩⟩
  have hsources : Entry.sourcesAmong (litterSettings.criteria litterRules) (sizeBelow? fs []) [] litter =
      [⟨["z.LUA"], 3⟩, ⟨["k_t.lua"], 3⟩, ⟨["d", "b.lua"], 4⟩] := by decide +kernel
  rw [← mem_sources (Entry.proper_directory.mp hproper).2, hsources]
  exact List.Perm.mem_iff (by decide +kernel)

end Scanner

end LuaSymbols
