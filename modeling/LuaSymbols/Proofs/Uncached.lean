import LuaSymbols.Proofs.Answers
import LuaSymbols.Proofs.Coherence

namespace LuaSymbols

/-- A service that knows no clean and no dirty files. -/
structure Uncached where
  evictOnClose : Bool
  documents : Table Text
  /-- What is known of each tracked file, in the order in which they were first seen. -/
  files : Table Contents

namespace Uncached

def new (evictOnClose : Bool) : Uncached := ⟨evictOnClose, [], []⟩

def remember (u : Uncached) (identity : String) (text : Option Text) : Uncached :=
  match text with
  | some text => { u with documents := u.documents.put identity text }
  | none => u

def track (u : Uncached) (identity : String) : Uncached :=
  if u.files.has identity then u else { u with files := u.files.put identity .empty }

/-- Reads the text of a tracked file again. Without a text nothing changes. -/
def reread (u : Uncached) (parser : Parser) (identity : String) : Uncached :=
  match u.files.get? identity, u.documents.get? identity with
  | some c, some text => { u with files := u.files.put identity (c.reread parser identity text) }
  | _, _ => u

def opened (u : Uncached) (uri : String) (text : Option Text) : Uncached :=
  (u.remember (identityOf uri) text).track (identityOf uri)

def changed (u : Uncached) (uri : String) (text : Option Text) : Uncached :=
  if u.files.has (identityOf uri) then u.remember (identityOf uri) text else u

def evict (u : Uncached) (uri : String) : Uncached :=
  { u with
    documents := u.documents.remove (identityOf uri)
    files := u.files.remove (identityOf uri) }

def closed (u : Uncached) (uri : String) : Uncached := if u.evictOnClose then u.evict uri else u

def index (u : Uncached) (parser : Parser) (uri : String) (text : Text) : Uncached :=
  (u.opened uri (some text)).reread parser (identityOf uri)

def seed (u : Uncached) (parser : Parser) (documents : List (String × Text)) : Uncached :=
  documents.foldl (fun u d => u.index parser d.1 d.2) u

def query {α : Type} (u : Uncached) (parser : Parser) (uri : String) (unknown : α)
    (read : Contents → α) : Uncached × α :=
  let u := u.reread parser (identityOf uri)
  (u, (u.files.get? (identityOf uri)).elim unknown read)

def listSymbols (u : Uncached) (parser : Parser) (uri : String) : Uncached × List Symbol :=
  u.query parser uri [] (·.symbols)

def diagnostics (u : Uncached) (parser : Parser) (uri : String) : Uncached × List Diagnostic :=
  u.query parser uri [] (·.problems)

def findDefinition (u : Uncached) (parser : Parser) (uri : String) (p : Position) :
    Uncached × List Location :=
  let first := u.query parser uri none (·.occurrenceAt? p)
  match first.2 with
  | none => (first.1, [])
  | some o =>
    let others := first.1.files.keys.filter fun key => key != identityOf uri
    let u := others.foldl (fun u key => u.reread parser key) first.1
    (u, u.files.values.filterMap fun c => (c.byName.get? o.name).map fun d => ⟨d.container, d.range⟩)

def perform (u : Uncached) (parser : Parser) : Operation → Uncached × Answer
  | .opened uri text | .saved uri text => (u.opened uri text, .nothing)
  | .changed uri text => (u.changed uri text, .nothing)
  | .closed uri => (u.closed uri, .nothing)
  | .evict uri => (u.evict uri, .evicted (u.files.has (identityOf uri)))
  | .seed documents =>
    (u.seed parser documents, .seeded (documents.countP fun d => (parser d.2).isOk))
  | .listSymbols uri => (u.listSymbols parser uri).map id .symbols
  | .findDefinition uri p => (u.findDefinition parser uri p).map id .locations
  | .diagnostics uri => (u.diagnostics parser uri).map id .diagnostics

def answers (u : Uncached) (parser : Parser) : List Operation → List Answer
  | [] => []
  | op :: rest => (u.perform parser op).2 :: (u.perform parser op).1.answers parser rest

end Uncached

namespace Service

def uncached (s : Service) : Uncached :=
  ⟨s.evictOnClose, s.documents, s.workspace.mapValues (·.contents)⟩

variable {tools : Tools} {s : Service}

theorem files_get? (s : Service) (identity : String) :
    s.uncached.files.get? identity = (s.workspace.get? identity).map (·.contents) :=
  Table.get?_mapValues _ _ _

theorem files_has (s : Service) (identity : String) :
    s.uncached.files.has identity = s.workspace.has identity :=
  Table.has_mapValues _ _ _

theorem uncached_remember (s : Service) (uri : String) (text : Option Text) :
    (s.remember uri text).uncached = s.uncached.remember (identityOf uri) text := by
  cases text <;> rfl

theorem files_track (w : Workspace) (identity : String) :
    (w.track identity).mapValues (·.contents) =
      if w.has identity then w.mapValues (·.contents)
      else (w.mapValues (·.contents)).put identity .empty := by
  unfold Workspace.track
  split
  · rfl
  · exact Table.mapValues_put _ _ _ _

/-- The mark on a changed file is nothing that a query can see. -/
theorem files_markDirty (w : Workspace) (identity : String) :
    (w.markDirty identity).mapValues (·.contents) = w.mapValues (·.contents) := by
  unfold Workspace.markDirty
  split
  · rename_i f hf
    rw [Table.mapValues_put]
    apply Table.put_get?
    rw [Table.get?_mapValues, hf]
    rfl
  · rfl

theorem uncached_opened (s : Service) (uri : String) (text : Option Text) :
    (s.opened uri text).uncached = s.uncached.opened uri text := by
  have hfiles : (s.remember uri text).uncached.files.has (identityOf uri) =
      s.workspace.has (identityOf uri) := by
    rw [files_has, workspace_remember]
  simp only [opened, Uncached.opened, Uncached.track, ← uncached_remember, hfiles]
  simp only [uncached, workspace_remember, files_markDirty, files_track]
  split <;> rfl

/-- A change marks and stores, and the service without a cache has no marks. -/
theorem uncached_changed (s : Service) (uri : String) (text : Option Text) :
    (s.changed uri text).uncached = s.uncached.changed uri text := by
  simp only [changed, Uncached.changed, files_has]
  split
  · have hmark : ({ s.remember (identityOf uri) text with
        workspace := (s.remember (identityOf uri) text).workspace.markDirty (identityOf uri) } :
          Service).uncached = (s.remember (identityOf uri) text).uncached := by
      simp only [uncached, files_markDirty]
    rw [hmark, uncached_remember, identityOf_identityOf]
  · rfl

theorem uncached_evict (s : Service) (tools : Tools) (uri : String) :
    (s.evict tools uri).service.uncached = s.uncached.evict uri := by
  rw [evict_service]
  simp only [without, uncached, Uncached.evict, Table.mapValues_remove]

/-- Where the service leaves a clean file alone, reading its text again changes nothing. -/
theorem uncached_refresh (hc : s.Coherent tools.parser) (identity : String) :
    (s.refresh tools identity).service.uncached = s.uncached.reread tools.parser identity := by
  rw [refresh_service]
  simp only [Uncached.reread, files_get?]
  cases hf : s.workspace.get? identity with
  | none => rfl
  | some f =>
    have hid : f.identity = identity := hc.keyed identity f hf
    simp only [uncached, hid, Option.map_some, Table.mapValues_put]
    cases ht : s.documents.get? identity with
    | none =>
      have hsame : Table.put identity f.contents (s.workspace.mapValues (·.contents)) =
          s.workspace.mapValues (·.contents) := by
        apply Table.put_get?
        rw [Table.get?_mapValues, hf]
        rfl
      simp only [FileIndex.freshened, hsame]
    | some text =>
      -- Only here the two services differ in what they do: a clean file is not read again.
      have hcontents := (hc.settled identity).contents_freshened hf ht hid
      simp only [slot, ht] at hcontents
      rw [hcontents]

theorem uncached_refreshAll (hl : tools.Lawful) (hc : s.Coherent tools.parser)
    (identities : List String) : (s.refreshAll tools identities).service.uncached =
      identities.foldl (fun u identity => u.reread tools.parser identity) s.uncached := by
  rw [refreshAll_service hl]
  induction identities generalizing s with
  | nil => rfl
  | cons identity rest ih =>
    rw [List.foldl_cons, List.foldl_cons, ← uncached_refresh hc]
    exact ih (hc.steps (.single (.refresh identity)))

theorem uncached_index (hk : s.Keyed) (uri : String) (text : Text) :
    (s.index tools uri text).service.uncached = s.uncached.index tools.parser uri text := by
  have hfile : (s.opened uri (some text)).workspace.get? (identityOf uri) =
      some (s.workspace.entry (identityOf uri)).markDirty := by
    have hslot := slot_opened s uri (some text) (identityOf uri)
    rw [if_pos rfl] at hslot
    exact congrArg Slot.index hslot
  have htext : (s.remember uri (some text)).documents.get? (identityOf uri) = some text := by
    simp [remember]
  have hid : (s.workspace.entry (identityOf uri)).identity = identityOf uri :=
    Slot.Keyed.entry (hk (identityOf uri))
  simp only [Uncached.index, Uncached.reread, ← uncached_opened, files_get?, hfile, Option.map_some]
  simp only [index_service, uncached, opened, workspace_remember, files_markDirty,
    Table.mapValues_put, FileIndex.contents_reindexed, hid, htext]
  rfl

theorem uncached_indexAll (hc : s.Coherent tools.parser) (documents : List (String × Text)) :
    (s.indexAll tools documents).uncached = s.uncached.seed tools.parser documents := by
  unfold indexAll Uncached.seed
  induction documents generalizing s with
  | nil => rfl
  | cons d rest ih =>
    rw [List.foldl_cons, List.foldl_cons, ← uncached_index hc.keyed]
    exact ih (hc.steps (.single (.index d.1 d.2)))

/-- A query that looks at the contents of the index only is answered alike. -/
theorem uncached_query {α : Type} (hl : tools.Lawful) (hc : s.Coherent tools.parser) (uri : String)
    (unknown : α) (read : FileIndex → α) (read' : Contents → α)
    (hread : ∀ f, read f = read' f.contents) :
    (s.query tools uri unknown read).service.uncached =
        (s.uncached.query tools.parser uri unknown read').1 ∧
      (s.query tools uri unknown read).answer =
        .ok (s.uncached.query tools.parser uri unknown read').2 := by
  constructor
  · rw [query_service]
    exact uncached_refresh hc _
  · rw [query_answer hl hc.keyed, ← get?_refresh hc.keyed]
    simp only [Uncached.query, ← uncached_refresh hc, files_get?]
    cases (s.refresh tools (identityOf uri)).service.workspace.get? (identityOf uri) with
    | none => rfl
    | some f => exact congrArg Except.ok (hread f)

theorem uncached_resolve (s : Service) (name : String) :
    s.workspace.resolve name = s.uncached.files.values.filterMap fun c =>
      (c.byName.get? name).map fun d => ⟨d.container, d.range⟩ := by
  simp only [uncached, Table.values_mapValues, List.filterMap_map]
  rfl

/-- The file that is asked about is read first, and then all files, in both services. -/
theorem uncached_findDefinition (hl : tools.Lawful) (hc : s.Coherent tools.parser) (uri : String)
    (p : Position) :
    (s.findDefinition tools uri p).service.uncached =
        (s.uncached.findDefinition tools.parser uri p).1 ∧
      (s.findDefinition tools uri p).answer =
        .ok (s.uncached.findDefinition tools.parser uri p).2 := by
  obtain ⟨hstate, hanswer⟩ := uncached_query hl hc uri none (·.occurrenceAt? p) (·.occurrenceAt? p)
    fun _ => rfl
  have hc' := hc.steps (s.query_refreshes tools uri none (·.occurrenceAt? p)).steps
  rw [findDefinition, Reply.andThen_of_ok hanswer, Uncached.findDefinition, ← hstate]
  generalize (s.query tools uri none (·.occurrenceAt? p)).service = t at hc'
  generalize (s.uncached.query tools.parser uri none (·.occurrenceAt? p)).2 = occurrence
  cases occurrence with
  | none => exact ⟨rfl, rfl⟩
  | some o =>
    have hkeys : t.uncached.files.keys = t.workspace.keys := Table.keys_mapValues _ _
    dsimp only
    rw [Reply.andThen_of_ok (refreshAll_answer hl t _), debug_service, debug_answer hl, hkeys,
      ← uncached_refreshAll hl hc', ← uncached_resolve]
    exact ⟨rfl, rfl⟩

/-- One operation leads to the same state but for the cache, and has the same answer. -/
theorem uncached_perform (hl : tools.Lawful) (hc : s.Coherent tools.parser) (op : Operation) :
    (s.perform tools op).service.uncached = (s.uncached.perform tools.parser op).1 ∧
      (s.perform tools op).answer = .ok (s.uncached.perform tools.parser op).2 := by
  cases op with
  | opened uri text => exact ⟨uncached_opened s uri text, rfl⟩
  | saved uri text => exact ⟨uncached_opened s uri text, rfl⟩
  | changed uri text => exact ⟨uncached_changed s uri text, rfl⟩
  | closed uri =>
    change (s.closed tools uri).service.uncached = s.uncached.closed uri ∧
      (s.closed tools uri).answer.map _ = _
    rw [closed_service]
    simp only [closed, Uncached.closed]
    -- Both services have the same setting, so both forget the file or neither does.
    change (if s.evictOnClose then _ else _ : Service).uncached =
      (if s.evictOnClose then _ else _) ∧ _
    split
    · rw [← evict_service s tools, Reply.map, evict_answer hl]
      exact ⟨uncached_evict s tools uri, rfl⟩
    · exact ⟨rfl, rfl⟩
  | evict uri =>
    refine ⟨uncached_evict s tools uri, ?_⟩
    simp only [perform, Reply.map, evict_answer hl, Uncached.perform, files_has]
    rfl
  | seed documents =>
    simp only [perform, Reply.map, Uncached.perform]
    rw [seed_service, taken_lawful hl, seed, seedFrom_answer hl, Nat.zero_add]
    exact ⟨uncached_indexAll hc documents, rfl⟩
  | listSymbols uri =>
    obtain ⟨hstate, hanswer⟩ := uncached_query hl hc uri [] (·.symbols) (·.symbols) fun _ => rfl
    refine ⟨hstate, ?_⟩
    simp only [perform, Reply.map, listSymbols, hanswer]
    rfl
  | findDefinition uri p =>
    obtain ⟨hstate, hanswer⟩ := uncached_findDefinition hl hc uri p
    refine ⟨hstate, ?_⟩
    simp only [perform, Reply.map, hanswer]
    rfl
  | diagnostics uri =>
    obtain ⟨hstate, hanswer⟩ := uncached_query hl hc uri [] problemsOf (·.problems) fun _ => rfl
    refine ⟨hstate, ?_⟩
    simp only [perform, Reply.map, diagnostics, hanswer]
    rfl

theorem uncached_answers (hl : tools.Lawful) (hc : s.Coherent tools.parser) (ops : List Operation) :
    s.answers tools ops = (s.uncached.answers tools.parser ops).map .ok := by
  induction ops generalizing s with
  | nil => rfl
  | cons op rest ih =>
    obtain ⟨hstate, hanswer⟩ := uncached_perform hl hc op
    have hrest := ih (hc.steps (s.perform_steps tools op))
    simp only [answers, Uncached.answers, List.map_cons, hanswer, hrest, hstate]

/-- Nobody can see the cache: from the start on, every operation is answered as by the service that
reads each text whenever it is asked about it, exactly if the console refuses none of the notices on
the way. -/
theorem answers_eq_uncached (hp : tools.parser.Lawful) (evictOnClose verbose : Bool)
    (ops : List Operation) :
    (new evictOnClose verbose).answers tools ops =
        ((Uncached.new evictOnClose).answers tools.parser ops).map .ok ↔
      (new evictOnClose verbose).Heard tools ops := by
  constructor
  · intro hsame
    by_contra hrefused
    obtain ⟨fault, hfault⟩ := exists_error_of_not_heard hrefused
    rw [hsame] at hfault
    obtain ⟨_, _, hok⟩ := List.mem_map.mp hfault
    cases hok
  · intro hheard
    rw [hheard.answers_eq]
    exact uncached_answers hp.lenient (new_coherent tools.parser evictOnClose verbose) ops

def brokenSeed : List Operation :=
  [.seed [("C:\\a", Text.ofString "f"), ("b", Text.ofString "f")],
    .seed [("c:/a", Text.ofString "f(")], .listSymbols "c:/a", .diagnostics "c:/a",
    .findDefinition "b" .origin, .closed "C:/a", .diagnostics "c:/a"]

/-- A text that does not parse meets a clean index, and a file is closed and asked about again. -/
theorem answers_brokenSeed :
    (Parser.recursion "f").Lawful ∧ (new true false).Heard (.recursion "f") brokenSeed ∧
    (new true false).answers (.recursion "f") brokenSeed =
      ((Uncached.new true).answers (.recursion "f") brokenSeed).map .ok ∧
    (new true false).answers (.recursion "f") brokenSeed =
      [.ok (.seeded 2), .ok (.seeded 0),
        .ok (.symbols [⟨"f", .function, .point .origin, "c:/a"⟩]),
        .ok (.diagnostics [⟨"Unexpected syntax", .point .origin⟩]),
        .ok (.locations [⟨"c:/a", .point .origin⟩, ⟨"b", .point .origin⟩]),
        .ok .nothing, .ok (.diagnostics [])] := by
  have hp := Parser.recursion_lawful "f"
  have hheard : (new true false).Heard (.recursion "f") brokenSeed := by decide +kernel
  exact ⟨hp, hheard, (answers_eq_uncached hp true false brokenSeed).mpr hheard, by decide +kernel⟩

def taggedName : List Operation :=
  [.opened "file:///w/[/a].lua" (some (Text.ofString "f(")), .diagnostics "file:///w/[/a].lua"]

/-- A name with a closing tag in it: the warning is refused, so there is no answer where the other
service has one. -/
theorem answers_taggedName :
    (new false false).answers (.recursion "f") taggedName ≠
      ((Uncached.new false).answers (.recursion "f") taggedName).map .ok := by
  decide +kernel

end Service

end LuaSymbols
