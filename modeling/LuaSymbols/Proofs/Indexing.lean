import LuaSymbols.Markup
import LuaSymbols.Proofs.Consoles
import LuaSymbols.Proofs.Tables
import LuaSymbols.Proofs.Visits

namespace LuaSymbols

/-- A parser that keeps to its signature: it fails only by a failure of the text, and the walk knows
every node of a tree that it returns. -/
structure Parser.Lawful (parser : Parser) : Prop where
  fails : ∀ text fault, parser text ≠ .error (.fault fault)
  walks : ∀ text tree, parser text = .ok tree → ∀ identity, ∃ found, tree.walk identity = .ok found

structure Tools.Lawful (tools : Tools) : Prop where
  parser : tools.parser.Lawful
  shows : ∀ n, tools.console.shows n = true

theorem Parser.Lawful.lenient {tools : Tools} (h : tools.parser.Lawful) : tools.lenient.Lawful :=
  ⟨h, tools.lenient_shows⟩

/-- A lawful parser leaves two outcomes: a failure that names its cause, or a tree that can be
walked. -/
theorem Parser.Lawful.cases {parser : Parser} (h : parser.Lawful) (text : Text) (identity : String) :
    (∃ failure, parser text = .error (.failure failure)) ∨
      ∃ tree found, parser text = .ok tree ∧ tree.walk identity = .ok found := by
  cases hp : parser text with
  | error why =>
    cases why with
    | failure failure => exact .inl ⟨failure, rfl⟩
    | fault fault => exact False.elim (h.fails text fault hp)
  | ok tree =>
    obtain ⟨found, hf⟩ := h.walks text tree hp identity
    exact .inr ⟨tree, found, rfl, hf⟩

/-- A parser that knows one text, and finds every other at fault from its start. -/
def Parser.only (known : Text) (tree : Node) : Parser := fun text =>
  if text = known then .ok tree else .error (.failure ⟨.unexpected, some Position.origin⟩)

/-- One known text and a failure for every other make a lawful parser. -/
theorem Parser.only_lawful {known : Text} {tree : Node}
    (h : ∀ identity, ∃ found, tree.walk identity = .ok found) : (Parser.only known tree).Lawful := by
  constructor
  · intro text fault hp
    unfold Parser.only at hp
    split at hp <;> cases hp
  · intro text tree' hp
    unfold Parser.only at hp
    split at hp
    · cases hp
      exact h
    · cases hp

def Node.recursion (name : String) (range : Range) : Node :=
  .chunk [.function (some (.identifier ⟨name, range⟩))
    [.callStatement (.call (.identifier ⟨name, range⟩) [] range) range] false range]

/-- A parser for documents with one function, which know no text but its name. -/
def Parser.recursion (name : String) : Parser :=
  .only (Text.ofString name) (.recursion name (.point .origin))

theorem Parser.recursion_lawful (name : String) : (Parser.recursion name).Lawful :=
  only_lawful fun _ => ⟨_, rfl⟩

theorem Parser.recursion_of_ne (name : String) {text : Text} (h : text ≠ Text.ofString name) :
    Parser.recursion name text = .error (.failure ⟨.unexpected, some Position.origin⟩) :=
  if_neg h

def Tools.recursion (name : String) : Tools := ⟨.recursion name, Markup.console⟩

/-- Every declaration that a walk finds stands in its file. -/
theorem Node.walk_in {node : Node} {container : String} {found : Findings}
    (h : node.walk container = .ok found) : ∀ d ∈ found.symbols.toList, d.container = container := by
  intro d hd
  rw [(walk_findings h).2] at hd
  obtain ⟨n, _, hdeclares⟩ := List.mem_filterMap.mp hd
  exact container_of_declaration hdeclares

theorem toOption_storedText (documents : Table Text) (identity : String) :
    (storedText documents identity).toOption = documents.get? identity := by
  unfold storedText
  cases documents.get? identity <;> rfl

namespace FileIndex

/-- The last write under a name wins. What the table had before counts only for names that are not
written. -/
theorem get?_foldl_put (symbols : List Symbol) (t : Table Symbol) (name : String) :
    (symbols.foldl (fun t s => t.put s.name s) t).get? name =
      (symbols.filter fun s => s.name == name).getLast?.or (t.get? name) := by
  induction symbols generalizing t with
  | nil => rfl
  | cons d ds ih =>
    rw [List.foldl_cons, ih, Table.get?_put]
    by_cases hn : d.name = name
    · have hfilter : (d :: ds).filter (fun s => s.name == name) =
          d :: ds.filter fun s => s.name == name := by simp [hn]
      rw [hfilter, List.getLast?_cons, if_pos hn]
      cases (ds.filter fun s => s.name == name).getLast? <;> rfl
    · have hfilter : (d :: ds).filter (fun s => s.name == name) =
          ds.filter fun s => s.name == name := by simp [hn]
      rw [hfilter, if_neg hn]

/-- Of several declarations of one name the last one is found. -/
theorem get?_tabulate (symbols : List Symbol) (name : String) :
    (tabulate symbols).get? name = (symbols.filter fun s => s.name == name).getLast? := by
  rw [tabulate, get?_foldl_put]
  exact Option.or_none

/-- A fold over declarations lists each name where it is declared first. -/
theorem keys_foldl_put (symbols : List Symbol) (t : Table Symbol) :
    (symbols.foldl (fun t s => t.put s.name s) t).keys =
      t.keys ++ ((symbols.map (·.name)).filter fun name => name ∉ t.keys).eraseDups := by
  induction symbols generalizing t with
  | nil => simp
  | cons d ds ih =>
    rw [List.foldl_cons, ih, Table.keys_put, List.map_cons]
    by_cases hd : d.name ∈ t.keys
    · simp [hd]
    · have hfilter : ((ds.map (·.name)).filter fun name => name ∉ t.keys ++ [d.name]) =
          ((ds.map (·.name)).filter fun name => name ∉ t.keys).filter fun name => !name == d.name := by
        rw [List.filter_filter]
        apply List.filter_congr
        intro name _
        by_cases hname : name = d.name <;> simp [hname]
      rw [if_neg hd, hfilter, List.filter_cons_of_pos (by simpa using hd), List.eraseDups_cons,
        List.append_assoc]
      rfl

/-- The names stand in the order of their first declarations. -/
theorem keys_tabulate (symbols : List Symbol) :
    (tabulate symbols).keys = (symbols.map (·.name)).eraseDups := by
  rw [tabulate, keys_foldl_put]
  simp [Table.keys]

def reindexed (f : FileIndex) (text : Text) (parser : Parser) : FileIndex :=
  match f.rebuild text parser with
  | .ok (f', _) => f'
  | .error _ => f

variable {f : FileIndex} {text : Text} {parser : Parser}

theorem rebuild_of_failure {failure : ParseFailure} (h : parser text = .error (.failure failure)) :
    f.rebuild text parser = .ok (f.fail failure, some failure) := by
  simp only [rebuild, h]

theorem rebuild_of_found {tree : Node} {found : Findings} (h : parser text = .ok tree)
    (hw : tree.walk f.identity = .ok found) : f.rebuild text parser = .ok (f.accept found, none) := by
  simp only [rebuild, h, hw]

theorem reindexed_of_failure {failure : ParseFailure} (h : parser text = .error (.failure failure)) :
    f.reindexed text parser = f.fail failure := by
  simp only [reindexed, rebuild_of_failure h]

theorem reindexed_of_found {tree : Node} {found : Findings} (h : parser text = .ok tree)
    (hw : tree.walk f.identity = .ok found) : f.reindexed text parser = f.accept found := by
  simp only [reindexed, rebuild_of_found h hw]

/-- Indexing notes a failure, takes over what a walk has found, or breaks off without a trace. -/
theorem reindexed_cases (f : FileIndex) (text : Text) (parser : Parser) :
    (∃ failure, parser text = .error (.failure failure) ∧ f.reindexed text parser = f.fail failure) ∨
    (∃ tree found, parser text = .ok tree ∧ tree.walk f.identity = .ok found ∧
      f.reindexed text parser = f.accept found) ∨
    f.reindexed text parser = f := by
  cases hp : parser text with
  | error why =>
    cases why with
    | failure failure => exact .inl ⟨failure, rfl, reindexed_of_failure hp⟩
    | fault fault => exact .inr (.inr (by simp only [reindexed, rebuild, hp]))
  | ok tree =>
    cases hw : tree.walk f.identity with
    | ok found => exact .inr (.inl ⟨tree, found, rfl, hw, reindexed_of_found hp hw⟩)
    | error fault => exact .inr (.inr (by simp only [reindexed, rebuild, hp, hw]))

theorem reindexed_identity : (f.reindexed text parser).identity = f.identity := by
  rcases reindexed_cases f text parser with ⟨_, _, he⟩ | ⟨_, _, _, _, he⟩ | he <;> rw [he] <;> rfl

/-- A second attempt at the same text finds nothing to change, unless the first one has succeeded and
the work would be done again. -/
theorem reindexed_reindexed (h : (f.reindexed text parser).dirty = true) :
    (f.reindexed text parser).reindexed text parser = f.reindexed text parser := by
  rcases reindexed_cases f text parser with ⟨failure, hp, he⟩ | ⟨_, found, _, _, he⟩ | he
  · rw [he, reindexed_of_failure hp]
    rfl
  · rw [he] at h
    simp [accept] at h
  · rw [he, he]

/-- The index after the file has been brought up to date with the text in store, if there is one. -/
def freshened (f : FileIndex) (text : Option Text) (parser : Parser) : FileIndex :=
  match text with
  | some text => if f.dirty then f.reindexed text parser else f
  | none => f

theorem freshened_of_clean (h : f.dirty = false) (text : Option Text) :
    f.freshened text parser = f := by
  cases text <;> simp [freshened, h]

theorem freshened_identity (text : Option Text) :
    (f.freshened text parser).identity = f.identity := by
  cases text with
  | none => rfl
  | some text =>
    simp only [freshened]
    split
    · exact reindexed_identity
    · rfl

/-- A second refresh without a change in between does nothing, failed or not. -/
theorem freshened_freshened (text : Option Text) :
    (f.freshened text parser).freshened text parser = f.freshened text parser := by
  cases text with
  | none => rfl
  | some text =>
    cases hd : f.dirty with
    | false => rw [freshened_of_clean hd, freshened_of_clean hd]
    | true =>
      simp only [freshened, hd, ↓reduceIte]
      split
      · rename_i hstill
        exact reindexed_reindexed hstill
      · rfl

@[simp] theorem warning_index (c : Console) (n : Notice) : (Refresh.warning f c n).index = f := by
  unfold Refresh.warning
  split <;> rfl

@[simp] theorem warning_asked (c : Console) (n : Notice) : (Refresh.warning f c n).asked = true := by
  unfold Refresh.warning
  split <;> rfl

/-- Whatever the console makes of the warning, the index is as the text has left it. -/
theorem refresh_index (f : FileIndex) (tools : Tools) (provider : ContentProvider) :
    (f.refresh tools provider).index =
      f.freshened (provider f.identity).toOption tools.parser := by
  cases hd : f.dirty with
  | false => rw [refresh_of_clean hd, freshened_of_clean hd]
  | true =>
    cases ht : provider f.identity with
    | error reason => simp [refresh, freshened, hd, ht, Except.toOption]
    | ok text =>
      simp only [refresh, freshened, reindexed, hd, ht, ↓reduceIte, Except.toOption]
      rcases f.rebuild text tools.parser with fault | ⟨f', _ | failure⟩
      · rfl
      · rfl
      · exact warning_index _ _

/-- The text is asked for exactly if the index is dirty. -/
theorem refresh_asked (f : FileIndex) (tools : Tools) (provider : ContentProvider) :
    (f.refresh tools provider).asked = f.dirty := by
  cases hd : f.dirty with
  | false => rw [refresh_of_clean hd]
  | true =>
    simp only [refresh, hd, ↓reduceIte]
    cases provider f.identity with
    | error reason => exact warning_asked _ _
    | ok text =>
      dsimp only
      rcases f.rebuild text tools.parser with fault | ⟨f', _ | failure⟩
      · rfl
      · rfl
      · exact warning_asked _ _

/-- A lawful parser never breaks the work off. -/
theorem rebuild_lawful (hp : parser.Lawful) (f : FileIndex) (text : Text) :
    ∃ failure, f.rebuild text parser = .ok (f.reindexed text parser, failure) ∧
      (failure = none ↔ ∃ tree, parser text = .ok tree) := by
  rcases hp.cases text f.identity with ⟨failure, h⟩ | ⟨tree, found, h, hw⟩
  · refine ⟨some failure, ?_, by simp [h]⟩
    rw [rebuild_of_failure h, reindexed_of_failure h]
  · refine ⟨none, ?_, by simp [h]⟩
    rw [rebuild_of_found h hw, reindexed_of_found h hw]

/-- With lawful tools a refresh cannot break off. -/
theorem refresh_fault {tools : Tools} (ht : tools.Lawful) (provider : ContentProvider) :
    (f.refresh tools provider).fault = none := by
  have hwarning (g : FileIndex) (n : Notice) :
      (Refresh.warning g tools.console n).fault = none := by
    simp [Refresh.warning, ht.shows n]
  cases hd : f.dirty with
  | false => rw [refresh_of_clean hd]
  | true =>
    simp only [refresh, hd, ↓reduceIte]
    cases provider f.identity with
    | error reason => exact hwarning _ _
    | ok text =>
      obtain ⟨failure, hr, _⟩ := rebuild_lawful ht.parser f text
      simp only [hr]
      cases failure with
      | none => rfl
      | some failure => exact hwarning _ _

/-- The table of names is that of the declarations, and these stand in the file of the index. -/
structure Consistent (f : FileIndex) : Prop where
  byName : f.byName = tabulate f.symbols
  container : ∀ d ∈ f.symbols, d.container = f.identity

theorem Consistent.new (identity : String) : (FileIndex.new identity).Consistent :=
  ⟨rfl, by simp [FileIndex.new]⟩

theorem Consistent.markDirty (h : f.Consistent) : f.markDirty.Consistent :=
  ⟨h.byName, h.container⟩

/-- A failed attempt keeps the declarations and a good one tabulates the new ones, so the table fits
either way. -/
theorem Consistent.reindexed (h : f.Consistent) : (f.reindexed text parser).Consistent := by
  rcases reindexed_cases f text parser with ⟨_, _, he⟩ | ⟨_, found, _, hw, he⟩ | he
  · rw [he]
    exact ⟨h.byName, h.container⟩
  · rw [he]
    refine ⟨rfl, ?_⟩
    exact Node.walk_in hw
  · rw [he]
    exact h

theorem Consistent.freshened (h : f.Consistent) (text : Option Text) :
    (f.freshened text parser).Consistent := by
  cases text with
  | none => exact h
  | some text =>
    simp only [FileIndex.freshened]
    split
    · exact h.reindexed
    · exact h

end FileIndex

end LuaSymbols
