import LuaSymbols.Proofs.Views

namespace LuaSymbols

namespace Operation

/-- The document that the operation is about. A batch is about many. -/
def about? : Operation → Option String
  | .opened uri _ | .saved uri _ | .changed uri _ | .closed uri | .evict uri | .listSymbols uri
  | .findDefinition uri _ | .diagnostics uri => some (identityOf uri)
  | .seed _ => none

/-- What is left of the operation without a document. -/
def beside? (identity : String) : Operation → Option Operation
  | .seed documents => some (.seed (documents.filter fun d => identityOf d.1 != identity))
  | op => if op.about? = some identity then none else some op

theorem beside?_of_about {op : Operation} {other : String} (h : op.about? = some other)
    (identity : String) : op.beside? identity = if other = identity then none else some op := by
  cases op with
  | seed documents => cases h
  | _ => simp [beside?, h]

end Operation

def erased (identity : String) (ops : List Operation) : List Operation :=
  ops.filterMap (·.beside? identity)

def Answer.beside (identity : String) : Answer → Answer
  | .locations places => .locations (places.filter fun l => l.uri != identity)
  | answer => answer

/-- Where a name is declared without one file is where it is declared in the others. -/
theorem declaredIn_delist (files : List String) (identity : String)
    {symbols symbols' : String → List Symbol}
    (h : ∀ other, other ≠ identity → symbols' other = symbols other) (name : String) :
    declaredIn (delist files identity) symbols' name =
      (declaredIn files symbols name).filter fun l => l.uri != identity := by
  unfold declaredIn delist
  induction files with
  | nil => rfl
  | cons file rest ih =>
    by_cases hf : file = identity
    · subst hf
      rw [List.filter_cons_of_neg (by simp), ih, List.filterMap_cons]
      cases ((symbols file).filter fun d => d.name == name).getLast? <;> simp
    · rw [List.filter_cons_of_pos (by simpa using hf), List.filterMap_cons, List.filterMap_cons, ih,
        h file hf]
      cases ((symbols file).filter fun d => d.name == name).getLast? <;> simp [hf]

namespace Workspace

/-- Tracking a file and forgetting another one commute. The lemmas that follow say so of every
operation. -/
theorem remove_track (w : Workspace) (identity other : String) :
    (w.track identity).remove other =
      if identity = other then w.remove other else track (w.remove other) identity := by
  unfold track
  split
  · rename_i hhas
    split
    · rfl
    · rename_i hne
      rw [Table.has_remove_of_ne w hne, if_pos hhas]
  · rename_i hhas
    rw [Table.remove_put]
    split
    · rfl
    · rename_i hne
      rw [Table.has_remove_of_ne w hne, if_neg hhas]

theorem remove_markDirty (w : Workspace) (identity other : String) :
    (w.markDirty identity).remove other =
      if identity = other then w.remove other else markDirty (w.remove other) identity := by
  unfold markDirty
  by_cases he : identity = other
  · subst he
    rw [if_pos rfl]
    split
    · rw [Table.remove_put, if_pos rfl]
    · rfl
  · rw [if_neg he, Table.get?_remove_of_ne w he]
    split
    · rw [Table.remove_put, if_neg he]
    · rfl

theorem entry_remove (w : Workspace) {identity other : String} (h : other ≠ identity) :
    entry (w.remove identity) other = w.entry other := by
  rw [entry, entry, Table.get?_remove_of_ne w h]

end Workspace

namespace Service

variable {tools : Tools} {s : Service}

theorem slot_without_of_ne (s : Service) {identity other : String} (h : other ≠ identity) :
    (s.without identity).slot other = s.slot other := by
  rw [slot_without, if_neg h.symm]

theorem Keyed.without (hk : s.Keyed) (identity : String) : (s.without identity).Keyed := by
  intro other f hf
  simp only [slot, Service.without, Table.get?_remove] at hf
  split at hf
  · cases hf
  · exact hk other f hf

theorem documents_remember_without (s : Service) (uri : String) (text : Option Text)
    (identity : String) : (s.remember uri text).documents.remove identity =
      if identityOf uri = identity then s.documents.remove identity
      else ((s.without identity).remember uri text).documents := by
  cases text with
  | none => simp [remember, without]
  | some text => simp [remember, without, Table.remove_put]

theorem opened_without (s : Service) (uri : String) (text : Option Text) (identity : String) :
    (s.opened uri text).without identity =
      if identityOf uri = identity then s.without identity
      else (s.without identity).opened uri text := by
  have hstate : (s.opened uri text).without identity = { s with
      documents := (s.remember uri text).documents.remove identity
      workspace := ((s.workspace.track (identityOf uri)).markDirty (identityOf uri)).remove
        identity } := by
    cases text <;> rfl
  rw [hstate, documents_remember_without, Workspace.remove_markDirty, Workspace.remove_track]
  split
  · rfl
  · cases text <;> rfl

/-- Whether the changed document is tracked is not a matter of the one that is forgotten. -/
theorem changed_without (s : Service) (uri : String) (text : Option Text) (identity : String) :
    (s.changed uri text).without identity =
      if identityOf uri = identity then s.without identity
      else (s.without identity).changed uri text := by
  simp only [changed]
  by_cases hhas : s.workspace.has (identityOf uri) = true
  · have hstate : ({ s.remember (identityOf uri) text with
        workspace := (s.remember (identityOf uri) text).workspace.markDirty (identityOf uri) } :
          Service).without identity = { s with
        documents := (s.remember (identityOf uri) text).documents.remove identity
        workspace := (s.workspace.markDirty (identityOf uri)).remove identity } := by
      cases text <;> rfl
    rw [if_pos hhas, hstate, documents_remember_without, Workspace.remove_markDirty,
      identityOf_identityOf]
    split
    · rfl
    · rename_i hne
      have hhas' : (s.without identity).workspace.has (identityOf uri) = true := by
        rw [without, Table.has_remove_of_ne _ hne, hhas]
      rw [if_pos hhas']
      cases text <;> rfl
  · rw [if_neg hhas]
    split
    · rfl
    · rename_i hne
      have hhas' : ¬ (s.without identity).workspace.has (identityOf uri) = true := by
        rwa [without, Table.has_remove_of_ne _ hne]
      rw [if_neg hhas']

theorem without_without (s : Service) (other identity : String) :
    (s.without other).without identity =
      if other = identity then s.without identity else (s.without identity).without other := by
  split
  · rename_i he
    subst he
    simp only [without, Table.remove_remove_self]
  · simp only [without, Table.remove_remove _ other]

theorem index_without (s : Service) (uri : String) (text : Text) (identity : String) :
    (s.index tools uri text).service.without identity =
      if identityOf uri = identity then s.without identity
      else ((s.without identity).index tools uri text).service := by
  rw [index_service, index_service]
  simp only [without, Table.remove_put, Workspace.remove_track, remember]
  split
  · rfl
  · rename_i hne
    rw [Workspace.entry_remove _ hne]

/-- A refresh reads the text of its own file only, which the hypothesis on keys makes sure of. -/
theorem refresh_without (hk : s.Keyed) (other identity : String) :
    (s.refresh tools other).service.without identity =
      if other = identity then s.without identity
      else ((s.without identity).refresh tools other).service := by
  rw [refresh_service, refresh_service]
  by_cases he : other = identity
  · subst he
    rw [if_pos rfl]
    split
    · simp only [without, Table.remove_put, ↓reduceIte]
    · rfl
  · have hget : (s.without identity).workspace.get? other = s.workspace.get? other :=
      Table.get?_remove_of_ne _ he
    rw [if_neg he, hget]
    cases hf : s.workspace.get? other with
    | none => rfl
    | some f =>
      have hid : f.identity = other := hk other f hf
      simp only [without, Table.remove_put, he, ↓reduceIte, hid, Table.get?_remove_of_ne _ he]

theorem refreshAll_without (ht : tools.Lawful) (hk : s.Keyed) (identities : List String)
    (identity : String) : (s.refreshAll tools identities).service.without identity =
      ((s.without identity).refreshAll tools (delist identities identity)).service := by
  rw [refreshAll_service ht, refreshAll_service ht, delist]
  induction identities generalizing s with
  | nil => rfl
  | cons other rest ih =>
    have hk' : (s.refresh tools other).service.Keyed := Steps.keyed (.single (.refresh other)) hk
    rw [List.foldl_cons, ih hk', refresh_without hk]
    by_cases he : other = identity
    · rw [if_pos he, List.filter_cons_of_neg (by simpa using he)]
    · rw [if_neg he, List.filter_cons_of_pos (by simpa using he), List.foldl_cons]

theorem indexAll_without (s : Service) (documents : List (String × Text)) (identity : String) :
    (s.indexAll tools documents).without identity =
      (s.without identity).indexAll tools (documents.filter fun d => identityOf d.1 != identity) := by
  induction documents generalizing s with
  | nil => rfl
  | cons d rest ih =>
    have hfirst : s.indexAll tools (d :: rest) = (s.index tools d.1 d.2).service.indexAll tools rest :=
      rfl
    rw [hfirst, ih, index_without]
    by_cases he : identityOf d.1 = identity
    · rw [if_pos he, List.filter_cons_of_neg (by simpa using he)]
    · rw [if_neg he, List.filter_cons_of_pos (by simpa using he)]
      rfl

theorem lookedUp_without (ht : tools.Lawful) (hk : s.Keyed) {other identity : String}
    (h : other ≠ identity) : (s.lookedUp tools other).without identity =
      (s.without identity).lookedUp tools other := by
  have hk' : (s.refresh tools other).service.Keyed := Steps.keyed (.single (.refresh other)) hk
  have hfirst : (s.refresh tools other).service.without identity =
      ((s.without identity).refresh tools other).service := by rw [refresh_without hk, if_neg h]
  have hkeys := keys_without (s.refresh tools other).service identity
  rw [hfirst] at hkeys
  simp only [lookedUp]
  rw [refreshAll_without ht hk', hfirst]
  simp only [others, delist, List.filter_filter, Bool.and_comm, hkeys]

/-- The pass goes over fewer files, and the others end up the same. -/
theorem findDefinition_without (ht : tools.Lawful) (hk : s.Keyed) {uri identity : String}
    (h : identityOf uri ≠ identity) (p : Position) :
    (s.findDefinition tools uri p).service.without identity =
      ((s.without identity).findDefinition tools uri p).service := by
  have hk' := hk.without identity
  have hslot := slot_without_of_ne s h
  cases hat : ((s.slot (identityOf uri)).refreshed tools.parser).index.elim none (·.occurrenceAt? p) with
  | none =>
    rw [(findDefinition_of_none ht hk hat).1, (findDefinition_of_none ht hk' (hslot ▸ hat)).1,
      refresh_without hk, if_neg h]
  | some o =>
    rw [(findDefinition_of_some ht hk hat).1, (findDefinition_of_some ht hk' (hslot ▸ hat)).1,
      lookedUp_without ht hk h]

theorem evict_without (s : Service) (uri identity : String) :
    (s.evict tools uri).service.without identity =
      if identityOf uri = identity then s.without identity
      else ((s.without identity).evict tools uri).service := by
  rw [evict_service, evict_service]
  exact without_without s (identityOf uri) identity

theorem closed_without (s : Service) (uri identity : String) :
    (s.closed tools uri).service.without identity =
      if identityOf uri = identity then s.without identity
      else ((s.without identity).closed tools uri).service := by
  have hsame : (s.without identity).evictOnClose = s.evictOnClose := rfl
  rw [closed_service, closed_service, hsame]
  split
  · exact without_without s (identityOf uri) identity
  · simp

theorem seed_without (ht : tools.Lawful) (s : Service) (documents : List (String × Text))
    (identity : String) : (s.seed tools documents).service.without identity =
      ((s.without identity).seed tools
        (documents.filter fun d => identityOf d.1 != identity)).service := by
  rw [seed_service, seed_service, taken_lawful ht, taken_lawful ht, indexAll_without]

theorem query_without {α : Type} (hk : s.Keyed) (uri : String) (unknown : α) (read : FileIndex → α)
    (identity : String) : (s.query tools uri unknown read).service.without identity =
      if identityOf uri = identity then s.without identity
      else ((s.without identity).query tools uri unknown read).service := by
  rw [query_service, query_service]
  exact refresh_without hk (identityOf uri) identity

/-- One operation: forgetting a document after it is forgetting it before, and leaving out what is
about it. -/
theorem perform_without (ht : tools.Lawful) (hk : s.Keyed) {identity : String} (op : Operation)
    (hno : ∀ uri p, op = .findDefinition uri p → identityOf uri ≠ identity) :
    (s.perform tools op).service.without identity =
      (op.beside? identity).elim (s.without identity) fun op =>
        ((s.without identity).perform tools op).service := by
  -- Whatever is about one document either leaves nothing behind or is done as well without the other.
  have hone : ∀ other, op.about? = some other →
      (s.perform tools op).service.without identity =
        (if other = identity then s.without identity
          else ((s.without identity).perform tools op).service) →
      (s.perform tools op).service.without identity =
        (op.beside? identity).elim (s.without identity) fun op =>
          ((s.without identity).perform tools op).service := by
    intro other habout h
    rw [h, Operation.beside?_of_about habout]
    split <;> rfl
  cases op with
  | opened uri text => exact hone _ rfl (opened_without s uri text identity)
  | saved uri text => exact hone _ rfl (opened_without s uri text identity)
  | changed uri text => exact hone _ rfl (changed_without s uri text identity)
  | closed uri => exact hone _ rfl (closed_without s uri identity)
  | evict uri => exact hone _ rfl (evict_without s uri identity)
  | seed documents => exact seed_without ht s documents identity
  | listSymbols uri => exact hone _ rfl (query_without hk uri [] _ identity)
  | diagnostics uri => exact hone _ rfl (query_without hk uri [] _ identity)
  | findDefinition uri p =>
    have hne := hno uri p rfl
    refine hone _ rfl ?_
    rw [if_neg hne]
    exact findDefinition_without ht hk hne p

/-- By induction over the operations. A query for a declaration about the document itself is
excluded, since it refreshes the others. -/
theorem run_without (ht : tools.Lawful) (hk : s.Keyed) {identity : String} {ops : List Operation}
    (hno : ∀ uri p, .findDefinition uri p ∈ ops → identityOf uri ≠ identity) :
    (s.run tools ops).without identity = (s.without identity).run tools (erased identity ops) := by
  induction ops generalizing s with
  | nil => rfl
  | cons op rest ih =>
    have hstep := perform_without ht hk op fun uri p he => hno uri p (he ▸ List.mem_cons_self)
    have hrest := ih ((s.perform_steps tools op).keyed hk)
      fun uri p hm => hno uri p (List.mem_cons_of_mem _ hm)
    change ((s.perform tools op).service.run tools rest).without identity = _
    rw [hrest, hstep]
    simp only [erased, List.filterMap_cons]
    cases op.beside? identity <;> rfl

/-- What is asked about another document is answered without the places in the erased one. -/
theorem perform_answer_without (ht : tools.Lawful) (ho : s.Orderly) {identity other : String}
    (ho' : (s.without identity).Orderly) {op : Operation} (habout : op.about? = some other)
    (hne : other ≠ identity) : ((s.without identity).perform tools op).answer =
      (s.perform tools op).answer.map (.beside identity) := by
  cases op with
  | opened uri text | saved uri text | changed uri text => rfl
  | closed uri =>
    have hclosed (s : Service) : (s.closed tools uri).answer = .ok () := by
      simp only [closed]
      split
      · simp only [Reply.map, evict_answer ht]
        rfl
      · rfl
    simp only [perform, Reply.map, hclosed]
    rfl
  | evict uri =>
    cases habout
    have hhas := Table.has_remove_of_ne s.workspace hne
    simp only [perform, Reply.map, evict_answer ht, without, hhas]
    rfl
  | seed documents => cases habout
  | listSymbols uri =>
    cases habout
    simp only [perform, Reply.map, listSymbols, slot_without_of_ne s hne,
      query_of_shown ht ho.keyed uri [] (·.symbols) (·.symbols) fun _ => rfl,
      query_of_shown ht ho'.keyed uri [] (·.symbols) (·.symbols) fun _ => rfl]
    rfl
  | diagnostics uri =>
    cases habout
    simp only [perform, Reply.map, diagnostics, slot_without_of_ne s hne,
      query_of_shown ht ho.keyed uri [] problemsOf (·.problems) fun _ => rfl,
      query_of_shown ht ho'.keyed uri [] problemsOf (·.problems) fun _ => rfl]
    rfl
  | findDefinition uri p =>
    cases habout
    simp only [perform, Reply.map, findDefinition_of_shown ht ho, findDefinition_of_shown ht ho',
      slot_without_of_ne s hne, keys_without]
    cases ((s.slot (identityOf uri)).shown tools.parser).bind (·.occurrenceAt? p) with
    | none => rfl
    | some o =>
      -- Places are listed file by file, so those in the forgotten file just drop out.
      let symbols (s : Service) (i : String) := ((s.slot i).shown tools.parser).elim [] (·.symbols)
      have hsymbols : ∀ i, i ≠ identity → symbols (s.without identity) i = symbols s i :=
        fun i hi => by simp only [symbols, slot_without_of_ne s hi]
      have hplaces := declaredIn_delist s.workspace.keys identity hsymbols o.name
      simp only [symbols] at hplaces
      simp only [Option.elim_some, hplaces]
      rfl

theorem erased_append_cons {front rest : List Operation} {op : Operation} {identity other : String}
    (habout : op.about? = some other) (hne : other ≠ identity) :
    erased identity (front ++ op :: rest) = erased identity front ++ op :: erased identity rest := by
  simp [erased, Operation.beside?_of_about habout, hne]

/-- All that concerns one document, about which no name is looked up, can be erased from a history if the
console shows what the histories with and without the document tell. The state is then the one without the
document, other documents are answered the same but for the places in it, and a history that ends by
forgetting it leaves no trace of it. -/
theorem run_erased (tools : Tools) (hp : tools.parser.Lawful) (evictOnClose verbose : Bool)
    (identity : String) (ops : List Operation)
    (hno : ∀ uri p, .findDefinition uri p ∈ ops → identityOf uri ≠ identity)
    (hheard : (new evictOnClose verbose).Heard tools ops)
    (herased : (new evictOnClose verbose).Heard tools (erased identity ops)) :
    let after := (new evictOnClose verbose).run tools
    (after ops).without identity = after (erased identity ops) ∧
    (∀ front op rest other, ops = front ++ op :: rest → op.about? = some other → other ≠ identity →
      ((after (erased identity front)).perform tools op).answer =
        ((after front).perform tools op).answer.map (.beside identity)) ∧
    ∀ front uri, ops = front ++ [.evict uri] → identityOf uri = identity →
      after ops = after (erased identity ops) := by
  intro after
  have hstate : ∀ front : List Operation, (∀ op ∈ front, op ∈ ops) →
      ((new evictOnClose verbose).run tools.lenient front).without identity =
        (new evictOnClose verbose).run tools.lenient (erased identity front) := by
    intro front hfront
    exact run_without hp.lenient (new_keyed evictOnClose verbose)
      fun uri p hm => hno uri p (hfront _ hm)
  have hall : (after ops).without identity = after (erased identity ops) := by
    simp only [after, hheard.run_eq, herased.run_eq]
    exact hstate ops fun _ h => h
  refine ⟨hall, ?_, ?_⟩
  · rintro front op rest other rfl habout hne
    rw [erased_append_cons habout hne] at herased
    obtain ⟨hbefore, hop⟩ := heard_append.mp hheard
    obtain ⟨hbefore', hop'⟩ := heard_append.mp herased
    have hfront := hstate front fun _ h => List.mem_append_left _ h
    have ho' := run_orderly tools.lenient evictOnClose verbose (erased identity front)
    simp only [after, hbefore.run_eq, hbefore'.run_eq, hop.perform_eq, hop'.perform_eq]
    rw [← hfront]
    exact perform_answer_without hp.lenient (run_orderly tools.lenient evictOnClose verbose front)
      (hfront ▸ ho') habout hne
  · rintro front uri rfl rfl
    rw [← hall]
    -- Forgetting a second time changes nothing.
    have hevict : after (front ++ [.evict uri]) = (after front).without (identityOf uri) := by
      simp only [after, run_append]
      exact evict_service _ tools uri
    rw [hevict]
    simp only [without, Table.remove_remove_self]

def mended : List Operation :=
  [.opened "a" (some (Text.ofString "f")),
    .seed [("b", Text.ofString "f("), ("c", Text.ofString "f")], .findDefinition "a" .origin,
    .changed "b" (some (Text.ofString "f")), .diagnostics "b", .findDefinition "c" .origin,
    .evict "b"]

/-- A document that does not parse stands between two that do, and is mended and forgotten. -/
theorem run_erased_mended :
    (Tools.recursion "f").parser.Lawful ∧
    (∀ uri p, .findDefinition uri p ∈ mended → identityOf uri ≠ "b") ∧
    (new false false).Heard (.recursion "f") mended ∧
    (new false false).Heard (.recursion "f") (erased "b" mended) ∧
    let after := (new false false).run (.recursion "f")
    after mended = after (erased "b" mended) ∧
    ((after (erased "b" (mended.take 5))).perform (.recursion "f")
        (.findDefinition "c" .origin)).answer =
      ((after (mended.take 5)).perform (.recursion "f") (.findDefinition "c" .origin)).answer.map
        (.beside "b") ∧
    ((after (mended.take 5)).perform (.recursion "f") (.findDefinition "c" .origin)).answer =
      .ok (.locations [⟨"a", .point .origin⟩, ⟨"b", .point .origin⟩, ⟨"c", .point .origin⟩]) := by
  have hp : (Tools.recursion "f").parser.Lawful := Parser.recursion_lawful "f"
  have hno : ∀ uri p, .findDefinition uri p ∈ mended → identityOf uri ≠ "b" := by
    intro uri p hm
    simp only [mended, List.mem_cons, Operation.findDefinition.injEq, List.not_mem_nil, reduceCtorEq,
      false_or, or_false] at hm
    rcases hm with ⟨rfl, _⟩ | ⟨rfl, _⟩ <;> decide
  have hheard : (new false false).Heard (.recursion "f") mended := by decide +kernel
  have herased : (new false false).Heard (.recursion "f") (erased "b" mended) := by decide +kernel
  obtain ⟨_, hanswers, hforgotten⟩ := run_erased _ hp false false "b" mended hno hheard herased
  exact ⟨hp, hno, hheard, herased, hforgotten (mended.take 6) "b" rfl (by decide),
    hanswers (mended.take 5) _ _ "c" rfl (by decide) (by decide), by decide +kernel⟩

def barred : List Operation :=
  [.opened "file:///w/[/a].lua" (some (Text.ofString "f(")),
    .opened "file:///w/b.lua" (some (Text.ofString "f")),
    .findDefinition "file:///w/b.lua" .origin]

/-- A document whose warning cannot be shown. No name is looked up in it, and none is found elsewhere as
long as it is there. -/
theorem barred_not_as_erased :
    (new false false).answers (.recursion "f") barred =
      [.ok .nothing, .ok .nothing, .error (.unprintable
        "[yellow]Warning[/yellow]: Cannot parse file:///w/[/a].lua: Unexpected syntax at 0:0")] ∧
    (new false false).answers (.recursion "f") (erased "file:///w/[/a].lua" barred) =
      [.ok .nothing, .ok (.locations [⟨"file:///w/b.lua", .point .origin⟩])] := by
  decide +kernel

end Service

end LuaSymbols
