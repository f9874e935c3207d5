import LuaSymbols.Proofs.Order

namespace LuaSymbols

def Occurrence.Covers (o : Occurrence) (p : Position) : Prop := o.range.start ≤ p ∧ p ≤ o.range.stop

/-- The first mention, in the order of the walk, that covers the position is one of the name. -/
def FileIndex.NamedAt (f : FileIndex) (p : Position) (name : String) : Prop :=
  ∃ front o rest, f.occurrences = front ++ o :: rest ∧ o.Covers p ∧
    (∀ other ∈ front, ¬ other.Covers p) ∧ o.name = name

/-- Of each file, in the given order, the last declaration of a name, if there is one. -/
def declaredIn (files : List String) (symbols : String → List Symbol) (name : String) : List Location :=
  files.filterMap fun identity =>
    ((symbols identity).filter fun d => d.name == name).getLast?.map fun d => ⟨identity, d.range⟩

/-- No file is named twice. -/
theorem nodup_declaredIn {files : List String} (h : files.Nodup) (symbols : String → List Symbol)
    (name : String) : ((declaredIn files symbols name).map Location.uri).Nodup := by
  refine List.Nodup.sublist ?_ h
  unfold declaredIn
  induction files with
  | nil => exact .slnil
  | cons identity rest ih =>
    rw [List.filterMap_cons]
    have hrest := ih (List.nodup_cons.mp h).2
    split
    · exact hrest.cons identity
    · rename_i location hl
      obtain ⟨d, _, rfl⟩ := Option.map_eq_some_iff.mp hl
      exact hrest.cons_cons identity

theorem FileIndex.occurrenceAt?_eq_none {f : FileIndex} {p : Position}
    (h : ∀ o ∈ f.occurrences, ¬ o.Covers p) : f.occurrenceAt? p = none := by
  apply List.find?_eq_none.mpr
  intro o ho
  rw [Range.contains_iff]
  exact h o ho

/-- Of several mentions at a position the first one in the order of the walk is taken. -/
theorem FileIndex.occurrenceAt?_eq_some {f : FileIndex} {p : Position} {front rest : List Occurrence}
    {o : Occurrence} (hf : f.occurrences = front ++ o :: rest) (ho : o.Covers p)
    (hfront : ∀ other ∈ front, ¬ other.Covers p) : f.occurrenceAt? p = some o := by
  apply List.find?_eq_some_iff_append.mpr
  refine ⟨Range.contains_iff.mpr ho, front, rest, hf, ?_⟩
  intro other hother
  have hfalse : other.range.contains p = false :=
    Bool.eq_false_iff.mpr fun hc => hfront other hother (Range.contains_iff.mp hc)
  rw [hfalse]
  rfl

theorem FileIndex.NamedAt.occurrenceAt? {f : FileIndex} {p : Position} {name : String}
    (h : f.NamedAt p name) : ∃ o, f.occurrenceAt? p = some o ∧ o.name = name := by
  obtain ⟨front, o, rest, hf, ho, hfront, hname⟩ := h
  exact ⟨o, occurrenceAt?_eq_some hf ho hfront, hname⟩

/-- An index is only ever replaced by one that was tabulated from its own declarations. -/
theorem Slot.Move.consistent {parser : Parser} {identity : String} {c c' : Slot}
    (hm : Slot.Move parser identity c c') (h : ∀ f, c.index = some f → f.Consistent) :
    ∀ f, c'.index = some f → f.Consistent := by
  have hentry : (c.entry identity).Consistent := by
    unfold Slot.entry
    cases hi : c.index with
    | none => exact .new identity
    | some f => exact h f hi
  intro f hf
  cases hm with
  | opened text =>
    cases hf
    exact hentry.markDirty
  | changed text =>
    unfold Slot.changed at hf
    split at hf
    · rename_i g hg
      cases hf
      exact (h g hg).markDirty
    · exact h f hf
  | forgotten => cases hf
  | indexed text =>
    cases hf
    exact hentry.reindexed
  | refreshed =>
    obtain ⟨g, hg, rfl⟩ := Option.map_eq_some_iff.mp hf
    exact (h g hg).freshened _

namespace Service

variable {parser : Parser} {tools : Tools} {s s' : Service}

def Consistent (s : Service) : Prop := ∀ identity f, s.workspace.get? identity = some f → f.Consistent

theorem Steps.consistent (hs : Steps tools s s') (hk : s.Keyed) (h : s.Consistent) :
    s'.Consistent :=
  (Steps.slots (Q := fun _ c => ∀ f, c.index = some f → f.Consistent)
    (fun _ _ _ _ hc hm => hm.consistent hc) hs hk h).2

/-- What a service keeps of its files: each stands under its own name, once, and with the table of
its own declarations. -/
structure Orderly (s : Service) : Prop where
  keyed : s.Keyed
  consistent : s.Consistent
  nodup : s.workspace.keys.Nodup

theorem Orderly.steps (h : s.Orderly) (hs : Steps tools s s') : s'.Orderly :=
  ⟨Steps.keyed hs h.keyed, Steps.consistent hs h.keyed h.consistent, Steps.nodup_keys hs h.nodup⟩

theorem run_orderly (tools : Tools) (evictOnClose verbose : Bool) (ops : List Operation) :
    ((new evictOnClose verbose).run tools ops).Orderly := by
  have hnew : (new evictOnClose verbose).Orderly :=
    ⟨new_keyed _ _, (fun _ _ h => nomatch h), List.nodup_nil⟩
  exact hnew.steps (run_steps _ tools ops)

def freshSymbols (s : Service) (parser : Parser) (identity : String) : List Symbol :=
  ((s.slot identity).refreshed parser).index.elim [] (·.symbols)

def AllFresh (parser : Parser) (s s' : Service) : Prop :=
  ∀ identity, s'.slot identity = (s.slot identity).refreshed parser

theorem listSymbols_of_allFresh (ht : tools.Lawful) (hk : s'.Keyed)
    (h : AllFresh tools.parser s s') (uri : String) :
    (s'.listSymbols tools uri).answer = .ok (s.freshSymbols tools.parser (identityOf uri)) := by
  rw [listSymbols, query_answer ht hk, h, Slot.refreshed_refreshed]
  rfl

/-- One file after the other is asked for its last declaration of a name. -/
theorem resolve_of_allFresh (ho : s'.Orderly) (h : AllFresh parser s s') (name : String) :
    s'.workspace.resolve name = declaredIn s'.workspace.keys (s.freshSymbols parser) name := by
  unfold Workspace.resolve declaredIn
  rw [Table.filterMap_values ho.nodup]
  apply List.filterMap_congr
  intro identity hmem
  obtain ⟨f, hf⟩ := Table.has_iff.mp (Table.mem_keys_iff.mp hmem)
  have hsymbols : s.freshSymbols parser identity = f.symbols := by
    rw [freshSymbols, ← h identity]
    simp [slot, hf]
  have hc := ho.consistent identity f hf
  rw [hf, hsymbols, Option.bind_some, hc.byName, FileIndex.get?_tabulate]
  cases hd : (f.symbols.filter fun d => d.name == name).getLast? with
  | none => rfl
  | some d =>
    have hmem : d ∈ f.symbols := List.mem_of_mem_filter (List.mem_of_getLast? hd)
    have hcontainer : d.container = identity :=
      (hc.container d hmem).trans (ho.keyed identity f hf)
    simp [hcontainer]

def others (s : Service) (identity : String) : List String :=
  s.workspace.keys.filter fun key => key != identity

theorem mem_others {identity other : String} :
    other ∈ s.others identity ↔ s.workspace.has other = true ∧ other ≠ identity := by
  rw [others, List.mem_filter, Table.mem_keys_iff, bne_iff_ne]

/-- The state in which a name is looked up: the file asked about is refreshed, and then the others. -/
def lookedUp (s : Service) (tools : Tools) (identity : String) : Service :=
  let first := (s.refresh tools identity).service
  (first.refreshAll tools (first.others identity)).service

/-- One file first and the others after it are all files, each refreshed once. -/
theorem allFresh_lookedUp (h : tools.Lawful) (hk : s.Keyed) (identity : String) :
    AllFresh tools.parser s (s.lookedUp tools identity) := by
  intro other
  have hk' : (s.refresh tools identity).service.Keyed :=
    Steps.keyed (.single (.refresh identity)) hk
  rw [lookedUp, slot_refreshAll h hk', slot_refresh hk, others, keys_refresh, ← others]
  by_cases he : identity = other
  · subst he
    simp [mem_others]
  · rw [if_neg he]
    split
    · rfl
    · rename_i hnot
      -- What is neither the file nor one of the others is not tracked and has nothing to refresh.
      have huntracked : s.workspace.get? other = none := by
        rw [← Table.not_has_iff]
        exact fun hhas => hnot (mem_others.mpr ⟨hhas, fun h => he h.symm⟩)
      simp [Slot.refreshed, slot, huntracked]

theorem findDefinition_of_none (ht : tools.Lawful) (hk : s.Keyed) {uri : String} {p : Position}
    (h : ((s.slot (identityOf uri)).refreshed tools.parser).index.elim none (·.occurrenceAt? p) =
      none) :
    (s.findDefinition tools uri p).service = (s.refresh tools (identityOf uri)).service ∧
      (s.findDefinition tools uri p).answer = .ok [] := by
  have hanswer := query_answer ht hk uri none (·.occurrenceAt? p)
  rw [h] at hanswer
  rw [findDefinition, Reply.andThen_of_ok hanswer]
  exact ⟨query_service s tools uri none _, rfl⟩

/-- With a mention all files are refreshed before its name is looked up, and the answer is read off
what they are then. -/
theorem findDefinition_of_some (ht : tools.Lawful) (hk : s.Keyed) {uri : String} {p : Position}
    {o : Occurrence}
    (h : ((s.slot (identityOf uri)).refreshed tools.parser).index.elim none (·.occurrenceAt? p) =
      some o) :
    (s.findDefinition tools uri p).service = s.lookedUp tools (identityOf uri) ∧
      (s.findDefinition tools uri p).answer =
        .ok ((s.lookedUp tools (identityOf uri)).workspace.resolve o.name) ∧
      (s.query tools uri none (·.occurrenceAt? p)).notices ++
        ((s.refresh tools (identityOf uri)).service.refreshAll tools
          ((s.refresh tools (identityOf uri)).service.others (identityOf uri))).notices ⊆
        (s.findDefinition tools uri p).notices := by
  have hanswer := query_answer ht hk uri none (·.occurrenceAt? p)
  rw [h] at hanswer
  have hall := refreshAll_answer ht (s.refresh tools (identityOf uri)).service
    ((s.refresh tools (identityOf uri)).service.others (identityOf uri))
  rw [findDefinition, Reply.andThen_of_ok hanswer, query_service]
  dsimp only
  rw [← others, Reply.andThen_of_ok hall]
  refine ⟨debug_service _ _ _ _, debug_answer ht _ _ _, ?_⟩
  rw [← List.append_assoc]
  exact List.subset_append_left _ _

theorem findDefinition_ok (ht : tools.Lawful) (hk : s.Keyed) (uri : String) (p : Position) :
    ∃ locations, (s.findDefinition tools uri p).answer = .ok locations := by
  cases h : ((s.slot (identityOf uri)).refreshed tools.parser).index.elim none (·.occurrenceAt? p) with
  | none => exact ⟨_, (findDefinition_of_none ht hk h).2⟩
  | some o => exact ⟨_, (findDefinition_of_some ht hk h).2.1⟩

/-- Where a name is looked up, everything is told that a refresh of any file would tell. -/
theorem mem_notices_findDefinition (hp : tools.parser.Lawful) (hk : s.Keyed) {uri : String}
    {p : Position} {o : Occurrence}
    (h : ((s.slot (identityOf uri)).refreshed tools.parser).index.elim none (·.occurrenceAt? p) =
      some o) {identity : String} {n : Notice}
    (hn : n ∈ (s.slot identity).notices tools.parser s.verbose identity) :
    n ∈ (s.findDefinition tools.lenient uri p).notices := by
  apply (findDefinition_of_some hp.lenient hk h).2.2
  rw [List.mem_append]
  by_cases he : identityOf uri = identity
  · subst he
    left
    rwa [query_notices hk]
  · right
    have hstep : Steps tools.lenient s (s.refresh tools.lenient (identityOf uri)).service :=
      .single (.refresh _)
    have hslot := slot_refresh hk tools.lenient (identityOf uri) identity
    rw [if_neg he] at hslot
    refine mem_notices_refreshAll hp (hstep.keyed hk) (?_ : identity ∈ _) ?_
    · rw [others, keys_refresh, ← others, mem_others]
      refine ⟨?_, fun h => he h.symm⟩
      by_contra hhas
      simp [Slot.notices, slot, Table.not_has_iff.mp hhas] at hn
    · rw [hslot, hstep.options.2]
      exact hn

/-- The locations that are found, and the declarations of each file as they are shown right after. -/
theorem findDefinition_of_named (hp : tools.parser.Lawful) (ho : s.Orderly) {uri : String}
    {p : Position} {f : FileIndex} {name : String}
    (hf : ((s.slot (identityOf uri)).refreshed tools.parser).index = some f)
    (hname : f.NamedAt p name)
    (hheard : tools.console.ShowsAll (s.findDefinition tools.lenient uri p).notices) :
    (∀ other, ((s.findDefinition tools uri p).service.listSymbols tools other).answer =
        .ok (s.freshSymbols tools.parser (identityOf other))) ∧
      (s.findDefinition tools uri p).answer =
        .ok (declaredIn s.workspace.keys (s.freshSymbols tools.parser) name) := by
  obtain ⟨o, hat, rfl⟩ := hname.occurrenceAt?
  have hsome : ((s.slot (identityOf uri)).refreshed tools.parser).index.elim none
      (·.occurrenceAt? p) = some o := by
    rw [hf]
    exact hat
  obtain ⟨hservice, hanswer, _⟩ := findDefinition_of_some hp.lenient ho.keyed hsome
  have hrefreshes := s.findDefinition_refreshes tools.lenient uri p
  have hkeys := hrefreshes.keys
  have ho' := ho.steps hrefreshes.steps
  have hverbose := hrefreshes.steps.options.2
  have hall := allFresh_lookedUp hp.lenient ho.keyed (identityOf uri)
  rw [(findDefinition_follows s tools uri p).eq hheard, hanswer]
  rw [hservice] at hkeys ho' hverbose ⊢
  rw [resolve_of_allFresh ho' hall, hkeys]
  refine ⟨fun other => ?_, rfl⟩
  refine (query_follows _ tools other [] _).answer_ok_iff.mpr ⟨?_, ?_⟩
  -- Whatever the listing has to tell was told by the query before it already.
  · intro n hn
    rw [query_notices ho'.keyed, hall, hverbose] at hn
    exact hheard n (mem_notices_findDefinition hp ho.keyed hsome (Slot.notices_refreshed hn))
  · exact listSymbols_of_allFresh hp.lenient ho'.keyed hall other

/-- A name is looked up in every tracked file, also in one that was never asked about or whose text
does not parse any more. There is an answer exactly if the console shows all that is told on the way;
a file that is not tracked has nothing to tell. -/
theorem findDefinition_answers (tools : Tools) (hp : tools.parser.Lawful)
    (evictOnClose verbose : Bool) (ops : List Operation) (uri : String) (p : Position) :
    let s := (new evictOnClose verbose).run tools ops
    let tracked := trackedBy evictOnClose ((new evictOnClose verbose).carriedOut tools ops)
    let r := s.findDefinition tools uri p
    ((∃ locations, r.answer = .ok locations) ↔ s.Heard tools [.findDefinition uri p]) ∧
    (identityOf uri ∉ tracked → r.answer = .ok []) ∧
    (identityOf uri ∈ tracked → ∃ f,
      (s.refresh tools (identityOf uri)).service.workspace.get? (identityOf uri) = some f ∧
      (s.Heard tools [.findDefinition uri p] →
        ((∀ o ∈ f.occurrences, ¬ o.Covers p) → r.answer = .ok []) ∧
        ∀ name, f.NamedAt p name → ∃ symbols : String → List Symbol,
          (∀ other, (r.service.listSymbols tools other).answer = .ok (symbols (identityOf other))) ∧
          r.answer = .ok (declaredIn tracked symbols name) ∧
          ((declaredIn tracked symbols name).map Location.uri).Nodup)) := by
  intro s tracked r
  have ho : s.Orderly := run_orderly tools evictOnClose verbose ops
  have hkeys : s.workspace.keys = tracked := keys_eq_trackedBy tools evictOnClose verbose ops
  have hfollows := findDefinition_follows s tools uri p
  have hheard : s.Heard tools [.findDefinition uri p] ↔
      tools.console.ShowsAll (s.findDefinition tools.lenient uri p).notices := heard_singleton
  rw [hheard, ← hkeys, get?_refresh ho.keyed]
  refine ⟨?_, ?_, ?_⟩
  · constructor
    · rintro ⟨locations, hanswer⟩
      exact (hfollows.answer_ok_iff.mp hanswer).1
    · intro hall
      obtain ⟨locations, hanswer⟩ := findDefinition_ok hp.lenient ho.keyed uri p
      exact ⟨locations, hfollows.answer_ok_iff.mpr ⟨hall, hanswer⟩⟩
  · intro huntracked
    rw [Table.mem_keys_iff, Table.not_has_iff] at huntracked
    simp [r, findDefinition, query, Table.not_has_iff.mpr huntracked, Reply.andThen, reply]
  · intro htracked
    obtain ⟨g, hg⟩ := Table.has_iff.mp (Table.mem_keys_iff.mp htracked)
    have hf : ((s.slot (identityOf uri)).refreshed tools.parser).index =
        some (g.freshened (s.documents.get? (identityOf uri)) tools.parser) := by
      simp [Slot.refreshed, slot, hg]
    refine ⟨_, hf, fun hall => ⟨?_, ?_⟩⟩
    · intro hnone
      refine hfollows.answer_ok_iff.mpr ⟨hall, (findDefinition_of_none hp.lenient ho.keyed ?_).2⟩
      exact (congrArg (·.elim none (·.occurrenceAt? p)) hf).trans
        (FileIndex.occurrenceAt?_eq_none hnone)
    · intro name hname
      obtain ⟨hsymbols, hanswer⟩ := findDefinition_of_named hp ho hf hname hall
      exact ⟨s.freshSymbols tools.parser, hsymbols, hanswer, nodup_declaredIn ho.nodup _ _⟩

def reopened : List Operation :=
  [.opened "C:\\a" (some (Text.ofString "f")), .seed [("b", Text.ofString "f")], .evict "c:/a",
    .opened "c" (some (Text.ofString "f")), .opened "C:/a" (some (Text.ofString "f")),
    .changed "b" (some (Text.ofString "f("))]

/-- One file is forgotten and opened again, one is opened and never asked about, and the text of the
third does not parse any more. -/
theorem findDefinition_answers_reopened :
    (Tools.recursion "f").parser.Lawful ∧
    ((new false false).run (.recursion "f") reopened).Heard (.recursion "f")
      [.findDefinition "C:/a" .origin] ∧
    let r := ((new false false).run (.recursion "f") reopened).findDefinition (.recursion "f") "C:/a"
      .origin
    (∃ symbols : String → List Symbol,
      (∀ other, (r.service.listSymbols (.recursion "f") other).answer =
        .ok (symbols (identityOf other))) ∧
      r.answer = .ok (declaredIn ["b", "c", "c:/a"] symbols "f")) ∧
    r.answer = .ok [⟨"b", .point .origin⟩, ⟨"c", .point .origin⟩, ⟨"c:/a", .point .origin⟩] := by
  have hp : (Tools.recursion "f").parser.Lawful := Parser.recursion_lawful "f"
  have hheard : ((new false false).run (.recursion "f") reopened).Heard (.recursion "f")
      [.findDefinition "C:/a" .origin] := by decide +kernel
  have horder : trackedBy false ((new false false).carriedOut (.recursion "f") reopened) =
      ["b", "c", "c:/a"] := by decide +kernel
  have htracked : identityOf "C:/a" ∈
      trackedBy false ((new false false).carriedOut (.recursion "f") reopened) := by
    rw [horder]
    decide
  refine ⟨hp, hheard, ?_, by decide +kernel⟩
  obtain ⟨f, hf, hanswers⟩ :=
    (findDefinition_answers _ hp false false reopened "C:/a" .origin).2.2 htracked
  have hread : ((((new false false).run (.recursion "f") reopened).refresh (.recursion "f")
      (identityOf "C:/a")).service.workspace.get? (identityOf "C:/a")).map FileIndex.occurrences =
      some [⟨"f", "", .point .origin⟩] := by decide +kernel
  have hmention : f.occurrences = [⟨"f", "", .point .origin⟩] := by
    rw [hf] at hread
    exact Option.some.inj hread
  have hname : f.NamedAt .origin "f" :=
    ⟨[], _, [], hmention, ⟨by decide, by decide⟩, by simp, rfl⟩
  obtain ⟨symbols, hsymbols, hanswer, _⟩ := (hanswers hheard).2 "f" hname
  exact ⟨symbols, hsymbols, horder ▸ hanswer⟩

/-- A name is not looked up if the warning about some other file cannot be shown. -/
theorem findDefinition_unanswered_tagged :
    (((new false false).run (.recursion "f")
        [.opened "file:///w/[/a].lua" (some (Text.ofString "f(")),
          .opened "file:///w/b.lua" (some (Text.ofString "f"))]).findDefinition (.recursion "f")
      "file:///w/b.lua" .origin).answer.isOk = false := by
  decide +kernel

end Service

end LuaSymbols
