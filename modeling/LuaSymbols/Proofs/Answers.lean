import LuaSymbols.Proofs.Slots

namespace LuaSymbols

namespace Slot

/-- What a refresh of the document tells the user: a warning if its text is missing or does not parse,
and a notice for those who debug if it has been indexed. -/
def notices (c : Slot) (parser : Parser) (verbose : Bool) (identity : String) : List Notice :=
  match c.index with
  | none => []
  | some f =>
    if f.dirty then
      match c.text with
      | none => [.noContent identity (missingText identity)]
      | some text =>
        match parser text with
        | .error (.failure failure) => [.cannotParse identity failure]
        | .error (.fault _) => []
        | .ok tree =>
          match tree.walk identity with
          | .error _ => []
          | .ok found => if verbose then [.rebuilt identity found.symbols.toList.length] else []
    else []

variable {c : Slot} {parser : Parser} {verbose : Bool} {identity : String}

theorem notices_of_clean {f : FileIndex} (hf : c.index = some f) (hd : f.dirty = false) :
    c.notices parser verbose identity = [] := by
  simp [notices, hf, hd]

/-- A refresh that fails warns of nothing but that failure, with or without debugging. -/
theorem mem_notices_of_failure {text : Text} {failure : ParseFailure} {n : Notice}
    (ht : c.text = some text) (hp : parser text = .error (.failure failure))
    (hn : n ∈ c.notices parser verbose identity) : n = .cannotParse identity failure := by
  unfold notices at hn
  split at hn
  · cases hn
  split at hn
  · simpa [ht, hp] using hn
  · cases hn

/-- A refresh that succeeds is silent unless the index is being debugged. -/
theorem mem_notices_of_found {text : Text} {tree : Node} {found : Findings} {n : Notice}
    (ht : c.text = some text) (hp : parser text = .ok tree) (hw : tree.walk identity = .ok found)
    (hn : n ∈ c.notices parser verbose identity) :
    verbose = true ∧ n = .rebuilt identity found.symbols.toList.length := by
  unfold notices at hn
  split at hn
  · cases hn
  split at hn
  · simp only [ht, hp, hw] at hn
    split at hn
    · rename_i hv
      exact ⟨hv, List.mem_singleton.mp hn⟩
    · cases hn
  · cases hn

/-- A second refresh tells nothing that the first one has not told. -/
theorem notices_refreshed {n : Notice}
    (hn : n ∈ (c.refreshed parser).notices parser verbose identity) :
    n ∈ c.notices parser verbose identity := by
  rcases c.refreshed_cases parser identity with he | ⟨f, text, hf, hd, ht, he⟩
  · rwa [he] at hn
  · rw [he] at hn
    have hindex : (c.indexed parser identity text).index = some (f.reindexed text parser) := by
      simp [indexed, entry, hf]
    rcases FileIndex.reindexed_cases f text parser with
      ⟨failure, hp, _⟩ | ⟨tree, found, _, _, hr⟩ | hr
    · have hfirst : c.notices parser verbose identity = [.cannotParse identity failure] := by
        simp [notices, hf, hd, ht, hp]
      rw [hfirst, mem_notices_of_failure rfl hp hn]
      exact List.mem_cons_self
    · rw [notices_of_clean hindex (by rw [hr]; rfl)] at hn
      cases hn
    · have hsame : c.indexed parser identity text = c := by
        rw [hr, ← hf] at hindex
        exact congrArg₂ Slot.mk ht.symm hindex
      rwa [hsame] at hn

end Slot

/-- The console shows the warnings about those documents of a batch that do not parse. -/
def Tools.Warns (tools : Tools) (documents : List (String × Text)) : Prop :=
  ∀ d ∈ documents, ∀ failure, tools.parser d.2 = .error (.failure failure) →
    tools.console.shows (.cannotParse (identityOf d.1) failure) = true

namespace Service

variable {α : Type} {tools : Tools} {s : Service}

theorem tell_answer (h : tools.Lawful) (s : Service) (n : Notice) (a : α) :
    (s.tell tools n a).answer = .ok a := by
  simp [tell, h.shows n]

theorem debug_answer (h : tools.Lawful) (s : Service) (n : Notice) (a : α) :
    (s.debug tools n a).answer = .ok a := by
  unfold debug
  split
  · exact tell_answer h s n a
  · rfl

theorem evict_answer (h : tools.Lawful) (s : Service) (uri : String) :
    (s.evict tools uri).answer = .ok (s.workspace.has (identityOf uri)) := by
  simp only [evict]
  split
  · rename_i hhas
    rw [debug_answer h, hhas]
  · rename_i hhas
    rw [Bool.eq_false_iff.mpr hhas]
    rfl

theorem refresh_answer (h : tools.Lawful) (s : Service) (identity : String) :
    (s.refresh tools identity).answer = .ok () := by
  have hfault : (s.workspace.ensureFresh tools identity (storedText s.documents)).fault = none := by
    unfold Workspace.ensureFresh
    split
    · rfl
    · exact FileIndex.refresh_fault h _
  simp only [refresh, hfault]
  rw [Reply.andThen_of_ok rfl]
  dsimp only
  split
  · rfl
  · exact debug_answer h _ _ _

theorem debug_notices (s : Service) (tools : Tools) (n : Notice) (a : α) :
    (s.debug tools.lenient n a).notices = if s.verbose then [n] else [] := by
  unfold debug
  split <;> rfl

theorem refresh_notices_of_tracked {identity : String} {f : FileIndex} {r : Refresh}
    (hf : s.workspace.get? identity = some f)
    (hr : f.refresh tools.lenient (storedText s.documents) = r) (hfault : r.fault = none) :
    (s.refresh tools.lenient identity).notices = r.notices ++
      if r.index.walkCount = f.walkCount then []
      else if s.verbose then [.rebuilt identity r.index.symbols.length] else [] := by
  simp only [refresh, Workspace.ensureFresh, hf, hr, hfault, Reply.andThen, Workspace.entry,
    Table.get?_put, ↓reduceIte, Option.getD_some]
  split
  · rfl
  · rw [debug_notices]

/-- A rebuild that breaks a rule shows nothing, since it never comes to a warning. -/
theorem refresh_notices_of_broken {identity : String} {f : FileIndex} {text : Text} {fault : Fault}
    (hf : s.workspace.get? identity = some f) (hd : f.dirty = true)
    (ht : storedText s.documents f.identity = .ok text)
    (hr : f.rebuild text tools.parser = .error fault) :
    (s.refresh tools.lenient identity).notices = [] := by
  have hrefresh : f.refresh tools.lenient (storedText s.documents) = ⟨f, true, [], some fault⟩ := by
    simp only [FileIndex.refresh, hd, ht, Tools.lenient, hr, ↓reduceIte]
  simp only [refresh, Workspace.ensureFresh, hf, hrefresh]

/-- What a refresh tells is told by the slot of the document. -/
theorem refresh_notices (hk : s.Keyed) (tools : Tools) (identity : String) :
    (s.refresh tools.lenient identity).notices =
      (s.slot identity).notices tools.parser s.verbose identity := by
  cases hf : s.workspace.get? identity with
  | none => simp [refresh, Workspace.ensureFresh, Slot.notices, slot, hf, Reply.andThen, reply]
  | some f =>
    obtain rfl : f.identity = identity := hk identity f hf
    -- The split follows the refresh: clean, without a text, and then by what becomes of the text.
    cases hd : f.dirty with
    | false =>
      rw [Slot.notices_of_clean hf hd,
        refresh_notices_of_tracked hf (FileIndex.refresh_of_clean hd _ _) rfl]
      simp
    | true =>
      simp only [Slot.notices, slot, hf, hd, ↓reduceIte]
      cases ht : s.documents.get? f.identity with
      | none =>
        have hr : f.refresh tools.lenient (storedText s.documents) =
            ⟨f, true, [.noContent f.identity (missingText f.identity)], none⟩ := by
          simp only [FileIndex.refresh, hd, storedText, ht, ↓reduceIte]
          rfl
        rw [refresh_notices_of_tracked hf hr rfl]
        simp
      | some text =>
        have hstored : storedText s.documents f.identity = .ok text := by simp only [storedText, ht]
        dsimp only
        cases hp : tools.parser text with
        | error why =>
          cases why with
          | failure failure =>
            have hr : f.refresh tools.lenient (storedText s.documents) =
                ⟨f.fail failure, true, [.cannotParse f.identity failure], none⟩ := by
              simp only [FileIndex.refresh, hd, hstored, Tools.lenient,
                FileIndex.rebuild_of_failure hp, ↓reduceIte]
              rfl
            rw [refresh_notices_of_tracked hf hr rfl]
            simp [FileIndex.fail]
          | fault fault =>
            have hr : f.rebuild text tools.parser = .error fault := by
              simp only [FileIndex.rebuild, hp]
            exact refresh_notices_of_broken hf hd hstored hr
        | ok tree =>
          dsimp only
          cases hw : tree.walk f.identity with
          | error fault =>
            have hr : f.rebuild text tools.parser = .error fault := by
              simp only [FileIndex.rebuild, hp, hw]
            exact refresh_notices_of_broken hf hd hstored hr
          | ok found =>
            have hr : f.refresh tools.lenient (storedText s.documents) =
                ⟨f.accept found, true, [], none⟩ := by
              simp only [FileIndex.refresh, hd, hstored, Tools.lenient,
                FileIndex.rebuild_of_found hp hw, ↓reduceIte]
            rw [refresh_notices_of_tracked hf hr rfl]
            simp [FileIndex.accept]

/-- No refresh of several files stops before the last of them. -/
theorem refreshAll_service (h : tools.Lawful) (s : Service) (identities : List String) :
    (s.refreshAll tools identities).service =
      identities.foldl (fun s identity => (s.refresh tools identity).service) s := by
  induction identities generalizing s with
  | nil => rfl
  | cons identity rest ih =>
    rw [refreshAll, Reply.andThen_of_ok (refresh_answer h s identity)]
    exact ih _

theorem refreshAll_answer (h : tools.Lawful) (s : Service) (identities : List String) :
    (s.refreshAll tools identities).answer = .ok () := by
  induction identities generalizing s with
  | nil => rfl
  | cons identity rest ih =>
    rw [refreshAll, Reply.andThen_of_ok (refresh_answer h s identity)]
    exact ih _

/-- What a refresh of a file would tell is told when the file is refreshed among others. -/
theorem mem_notices_refreshAll (hp : tools.parser.Lawful) (hk : s.Keyed) {identities : List String}
    {identity : String} (hmem : identity ∈ identities) {n : Notice}
    (hn : n ∈ (s.slot identity).notices tools.parser s.verbose identity) :
    n ∈ (s.refreshAll tools.lenient identities).notices := by
  induction identities generalizing s with
  | nil => cases hmem
  | cons first rest ih =>
    rw [refreshAll, Reply.andThen_of_ok (refresh_answer hp.lenient s first), List.mem_append,
      refresh_notices hk]
    by_cases he : first = identity
    · subst he
      exact .inl hn
    · have hstep : Steps tools.lenient s (s.refresh tools.lenient first).service :=
        .single (.refresh first)
      have hrest : identity ∈ rest := (List.mem_cons.mp hmem).resolve_left fun h => he h.symm
      refine .inr (ih (hstep.keyed hk) hrest ?_)
      rw [slot_refresh hk, if_neg he, hstep.options.2]
      exact hn

/-- Each named file is refreshed, in whatever order and however often it is named. -/
theorem slot_refreshAll (h : tools.Lawful) (hk : s.Keyed) (identities : List String)
    (other : String) : (s.refreshAll tools identities).service.slot other =
      if other ∈ identities then (s.slot other).refreshed tools.parser else s.slot other := by
  rw [refreshAll_service h]
  induction identities generalizing s with
  | nil => simp
  | cons identity rest ih =>
    have hk' : (s.refresh tools identity).service.Keyed :=
      Steps.keyed (.single (.refresh identity)) hk
    rw [List.foldl_cons, ih hk', slot_refresh hk]
    by_cases he : identity = other
    · subst he
      simp [Slot.refreshed_refreshed]
    · have hne : ¬ other = identity := fun h => he h.symm
      simp [he, hne]

/-- A query answers from the slot of its document as a refresh leaves it. -/
theorem query_answer (h : tools.Lawful) (hk : s.Keyed) (uri : String) (unknown : α)
    (read : FileIndex → α) : (s.query tools uri unknown read).answer =
      .ok (((s.slot (identityOf uri)).refreshed tools.parser).index.elim unknown read) := by
  simp only [query]
  split
  · rename_i hhas
    obtain ⟨f, hf⟩ := Table.has_iff.mp hhas
    have hsome : ((s.slot (identityOf uri)).refreshed tools.parser).index =
        some (f.freshened (s.documents.get? (identityOf uri)) tools.parser) := by
      simp [Slot.refreshed, slot, hf]
    rw [Reply.andThen_of_ok (refresh_answer h s _)]
    simp only [reply, Workspace.entry, get?_refresh hk, hsome]
    rfl
  · rename_i hhas
    have hnone := Table.not_has_iff.mp hhas
    simp [Slot.refreshed, slot, hnone, reply]

/-- A query tells what the refresh of its document tells. -/
theorem query_notices (hk : s.Keyed) (tools : Tools) (uri : String) (unknown : α)
    (read : FileIndex → α) : (s.query tools.lenient uri unknown read).notices =
      (s.slot (identityOf uri)).notices tools.parser s.verbose (identityOf uri) := by
  simp only [query]
  split
  · rw [← refresh_notices hk]
    cases h : (s.refresh tools.lenient (identityOf uri)).answer with
    | error fault => rw [Reply.andThen_of_error h]
    | ok a =>
      rw [Reply.andThen_of_ok h]
      exact List.append_nil _
  · rename_i hhas
    simp [Slot.notices, slot, Table.not_has_iff.mp hhas, reply]

theorem heard_listSymbols (hk : s.Keyed) (uri : String) : s.Heard tools [.listSymbols uri] ↔
    tools.console.ShowsAll ((s.slot (identityOf uri)).notices tools.parser s.verbose (identityOf uri)) := by
  rw [heard_singleton, ← query_notices hk tools uri [] (·.symbols)]
  rfl

theorem heard_diagnostics (hk : s.Keyed) (uri : String) : s.Heard tools [.diagnostics uri] ↔
    tools.console.ShowsAll ((s.slot (identityOf uri)).notices tools.parser s.verbose (identityOf uri)) := by
  rw [heard_singleton, ← query_notices hk tools uri [] problemsOf]
  rfl

/-- The answer is about the text alone and owes nothing to what was indexed before. -/
theorem index_answer (h : tools.Lawful) (s : Service) (uri : String) (text : Text) :
    (s.index tools uri text).answer = .ok (tools.parser text).isOk := by
  simp only [index, workspace_remember]
  generalize ((s.workspace.track (identityOf uri)).entry (identityOf uri)) = f
  obtain ⟨failure, hr, hnone⟩ := FileIndex.rebuild_lawful h.parser f text
  rw [hr]
  cases failure with
  | none =>
    obtain ⟨tree, ht⟩ := hnone.mp rfl
    rw [ht]
    rfl
  | some failure =>
    cases ht : tools.parser text with
    | error why => exact tell_answer h _ _ _
    | ok tree => exact absurd (hnone.mpr ⟨tree, ht⟩) (by simp)

theorem taken_lawful (h : tools.Lawful) (s : Service) (documents : List (String × Text)) :
    s.taken tools documents = documents := by
  induction documents generalizing s with
  | nil => rfl
  | cons d rest ih => rw [taken, index_answer h, ih]

/-- The count of a batch is that of the texts that parse. -/
theorem seedFrom_answer (h : tools.Lawful) (s : Service) (count : Nat)
    (documents : List (String × Text)) : (s.seedFrom tools count documents).answer =
      .ok (count + documents.countP fun d => (tools.parser d.2).isOk) := by
  induction documents generalizing s count with
  | nil => rfl
  | cons d rest ih =>
    obtain ⟨uri, text⟩ := d
    rw [seedFrom, Reply.andThen_of_ok (index_answer h s uri text)]
    dsimp only
    rw [ih, List.countP_cons]
    cases (tools.parser text).isOk with
    | true => simp [Nat.add_assoc, Nat.add_comm 1]
    | false => simp

def warning? (parser : Parser) (d : String × Text) : Option Notice :=
  match parser d.2 with
  | .error (.failure failure) => some (.cannotParse (identityOf d.1) failure)
  | _ => none

/-- A document of a batch is warned about exactly if it does not parse, dirty or not. -/
theorem index_notices (hp : tools.parser.Lawful) (s : Service) (d : String × Text) :
    (s.index tools.lenient d.1 d.2).notices = (warning? tools.parser d).toList := by
  have hparser : tools.lenient.parser = tools.parser := rfl
  simp only [index, workspace_remember, hparser, warning?]
  generalize ((s.workspace.track (identityOf d.1)).entry (identityOf d.1)) = f
  rcases hp.cases d.2 f.identity with ⟨failure, hf⟩ | ⟨tree, found, ht, hw⟩
  · rw [FileIndex.rebuild_of_failure hf, hf]
    rfl
  · rw [FileIndex.rebuild_of_found ht hw, ht]
    rfl

/-- A batch tells of each of its documents that does not parse. -/
theorem seedFrom_notices (hp : tools.parser.Lawful) (s : Service) (count : Nat)
    (documents : List (String × Text)) :
    (s.seedFrom tools.lenient count documents).notices =
      documents.filterMap (warning? tools.parser) := by
  induction documents generalizing s count with
  | nil => rfl
  | cons d rest ih =>
    rw [seedFrom, Reply.andThen_of_ok (index_answer hp.lenient s d.1 d.2), List.filterMap_cons]
    dsimp only
    rw [index_notices hp, ih]
    cases warning? tools.parser d <;> rfl

/-- A batch is heard through if the console shows the warnings about the texts that fail. -/
theorem seed_heard_iff (hp : tools.parser.Lawful) (s : Service) (documents : List (String × Text)) :
    tools.console.ShowsAll (s.seed tools.lenient documents).notices ↔ tools.Warns documents := by
  rw [seed, seedFrom_notices hp]
  constructor
  · intro hall d hd failure hf
    exact hall _ (List.mem_filterMap.mpr ⟨d, hd, by simp only [warning?, hf]⟩)
  · intro hwarns n hn
    obtain ⟨d, hd, hwarning⟩ := List.mem_filterMap.mp hn
    unfold warning? at hwarning
    split at hwarning
    · rename_i failure hf
      cases hwarning
      exact hwarns d hd failure hf
    · cases hwarning

theorem slot_indexAll_others {documents : List (String × Text)} {identity : String}
    (h : ∀ d ∈ documents, identityOf d.1 ≠ identity) (s : Service) (tools : Tools) :
    (s.indexAll tools documents).slot identity = s.slot identity := by
  induction documents generalizing s with
  | nil => rfl
  | cons d rest ih =>
    have hrest := ih (fun e he => h e (List.mem_cons_of_mem _ he)) (s.index tools d.1 d.2).service
    rw [slot_index, if_neg (h d List.mem_cons_self)] at hrest
    exact hrest

/-- The slot of a document after a batch is settled by its last text in the batch. -/
theorem slot_indexAll_last {after : List (String × Text)} {uri : String}
    (h : ∀ d ∈ after, identityOf d.1 ≠ identityOf uri) (s : Service) (tools : Tools)
    (before : List (String × Text)) (text : Text) :
    (s.indexAll tools (before ++ (uri, text) :: after)).slot (identityOf uri) =
      ((s.indexAll tools before).slot (identityOf uri)).indexed tools.parser (identityOf uri)
        text := by
  have hsplit : s.indexAll tools (before ++ (uri, text) :: after) =
      ((s.indexAll tools before).index tools uri text).service.indexAll tools after := by
    simp only [indexAll, List.foldl_append, List.foldl_cons]
  rw [hsplit, slot_indexAll_others h, slot_index, if_pos rfl]

end Service

end LuaSymbols
