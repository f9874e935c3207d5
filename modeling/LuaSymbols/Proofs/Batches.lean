import LuaSymbols.Proofs.Views

namespace LuaSymbols

/-- After reading a text there is a problem exactly if that text does not parse. -/
theorem Contents.problems_reread {parser : Parser} (hp : parser.Lawful) (c : Contents)
    (identity : String) (text : Text) :
    (c.reread parser identity text).problems = [] ↔ (parser text).isOk = true := by
  rcases hp.cases text identity with ⟨failure, hf⟩ | ⟨tree, found, ht, hw⟩
  · rw [reread_of_failure hf, hf]
    simp [problems, Except.isOk, Except.toBool]
  · rw [reread_of_found ht hw, ht]
    simp [problems, Except.isOk, Except.toBool]

namespace Slot

variable {parser : Parser} {identity : String} {c : Slot}

/-- A document that was opened is dirty, so a query will read the new text over what was known. -/
theorem shown_opened (hk : c.Keyed identity) (text : Text) :
    (c.opened identity (some text)).shown parser =
      some ((c.entry identity).contents.reread parser identity text) := by
  have hid : (c.entry identity).markDirty.identity = identity := hk.entry
  have hread := FileIndex.contents_reindexed (c.entry identity).markDirty text parser
  rw [hid] at hread
  exact congrArg some hread

/-- An index that was made at once has nothing left to read. -/
theorem shown_indexed (hk : c.Keyed identity) (text : Text) :
    (c.indexed parser identity text).shown parser =
      some ((c.entry identity).contents.reread parser identity text) := by
  have hid : (c.entry identity).identity = identity := hk.entry
  have hsettled : (c.indexed parser identity text).Settled parser identity := by
    intro f hf _
    cases hf
    exact ⟨text, rfl, settled_reindexed hid text⟩
  have hfresh := hsettled.contents_freshened rfl rfl (FileIndex.reindexed_identity.trans hid)
  rw [FileIndex.contents_reindexed, hid, Contents.reread_reread] at hfresh
  exact congrArg some hfresh

end Slot

namespace Service

variable {parser : Parser} {tools : Tools} {s : Service}

def openings (documents : List (String × Text)) : List Operation :=
  documents.map fun d => .opened d.1 (some d.2)

theorem slot_openings_others {documents : List (String × Text)} {identity : String}
    (h : ∀ d ∈ documents, identityOf d.1 ≠ identity) (s : Service) :
    (s.run tools (openings documents)).slot identity = s.slot identity := by
  induction documents generalizing s with
  | nil => rfl
  | cons d rest ih =>
    change ((s.opened d.1 (some d.2)).run tools (openings rest)).slot identity = _
    rw [ih (fun e he => h e (List.mem_cons_of_mem _ he)), slot_opened, if_neg (h d List.mem_cons_self)]

/-- A document of a batch has no second text in it. -/
theorem others_of_nodup {before after : List (String × Text)} {d : String × Text}
    (h : ((before ++ d :: after).map fun d => identityOf d.1).Nodup) :
    (∀ e ∈ before, identityOf e.1 ≠ identityOf d.1) ∧
      ∀ e ∈ after, identityOf e.1 ≠ identityOf d.1 := by
  rw [List.map_append, List.map_cons, List.nodup_append] at h
  obtain ⟨_, htail, hdisjoint⟩ := h
  constructor
  · intro e he
    exact hdisjoint _ (List.mem_map_of_mem he) _ List.mem_cons_self
  · intro e he heq
    exact (List.nodup_cons.mp htail).1 (heq ▸ List.mem_map_of_mem he)

/-- Each document of the batch is indexed once, over what was known of it before the batch. -/
theorem slot_indexAll_of_mem {documents : List (String × Text)}
    (hd : (documents.map fun d => identityOf d.1).Nodup) {d : String × Text} (hm : d ∈ documents)
    (s : Service) (tools : Tools) : (s.indexAll tools documents).slot (identityOf d.1) =
      (s.slot (identityOf d.1)).indexed tools.parser (identityOf d.1) d.2 := by
  obtain ⟨before, after, rfl⟩ := List.append_of_mem hm
  obtain ⟨hbefore, hafter⟩ := others_of_nodup hd
  rw [slot_indexAll_last hafter, slot_indexAll_others hbefore]

theorem slot_openings_of_mem {documents : List (String × Text)}
    (hd : (documents.map fun d => identityOf d.1).Nodup) {d : String × Text} (hm : d ∈ documents)
    (s : Service) : (s.run tools (openings documents)).slot (identityOf d.1) =
      (s.slot (identityOf d.1)).opened (identityOf d.1) (some d.2) := by
  obtain ⟨before, after, rfl⟩ := List.append_of_mem hm
  obtain ⟨hbefore, hafter⟩ := others_of_nodup hd
  have hsplit : openings (before ++ d :: after) =
      openings before ++ .opened d.1 (some d.2) :: openings after := by simp [openings]
  rw [hsplit, run_append]
  change (((s.run tools (openings before)).opened d.1 (some d.2)).run tools
    (openings after)).slot _ = _
  rw [slot_openings_others hafter, slot_opened, if_pos rfl, slot_openings_others hbefore]

theorem keys_openings (s : Service) (tools : Tools) (documents : List (String × Text)) :
    (s.run tools (openings documents)).workspace.keys =
      documents.foldl (fun tracked d => enlist tracked (identityOf d.1)) s.workspace.keys := by
  induction documents generalizing s with
  | nil => rfl
  | cons d rest ih =>
    rw [List.foldl_cons, ← keys_opened s d.1 (some d.2)]
    exact ih _

/-- A batch indexes at once and opening indexes later, but no query can tell. -/
theorem indexAll_alike_openings (hk : s.Keyed) {documents : List (String × Text)}
    (hd : (documents.map fun d => identityOf d.1).Nodup) :
    Alike tools.parser (s.indexAll tools documents) (s.run tools (openings documents)) := by
  refine ⟨(keys_indexAll s tools documents).trans (keys_openings s tools documents).symm, ?_⟩
  intro identity
  by_cases hnamed : ∃ d ∈ documents, identityOf d.1 = identity
  · obtain ⟨d, hm, rfl⟩ := hnamed
    rw [slot_indexAll_of_mem hd hm, slot_openings_of_mem hd hm, Slot.shown_indexed (hk _),
      Slot.shown_opened (hk _)]
  · have hothers : ∀ d ∈ documents, identityOf d.1 ≠ identity := fun d hm he => hnamed ⟨d, hm, he⟩
    rw [slot_indexAll_others hothers, slot_openings_others hothers]

theorem indexAll_lenient (s : Service) (tools : Tools) (documents : List (String × Text)) :
    s.indexAll tools.lenient documents = s.indexAll tools documents := by
  induction documents generalizing s with
  | nil => rfl
  | cons d rest ih =>
    have hfirst : (s.index tools.lenient d.1 d.2).service = (s.index tools d.1 d.2).service := by
      rw [index_service, index_service]
      rfl
    rw [indexAll, List.foldl_cons, hfirst]
    exact ih _

/-- A batch that the console does not stop is indexed to its end, and counted. -/
theorem seed_of_warns (hp : tools.parser.Lawful) (s : Service) {documents : List (String × Text)}
    (hwarns : tools.Warns documents) :
    (s.seed tools documents).service = s.indexAll tools documents ∧
      (s.seed tools documents).answer = .ok (documents.countP fun d => (tools.parser d.2).isOk) := by
  have hsame : s.seed tools documents = s.seed tools.lenient documents :=
    (seedFrom_follows s tools 0 documents).eq ((seed_heard_iff hp s documents).mpr hwarns)
  rw [hsame, seed_service, taken_lawful hp.lenient, indexAll_lenient, seed,
    seedFrom_answer hp.lenient, Nat.zero_add]
  exact ⟨rfl, rfl⟩

/-- The console has no part in whether a document is then found without problems: one that parses has
a clean index and nothing to tell. -/
theorem diagnostics_indexAll (hp : tools.parser.Lawful) (hk : s.Keyed)
    {documents : List (String × Text)} (hd : (documents.map fun d => identityOf d.1).Nodup)
    {d : String × Text} (hm : d ∈ documents) :
    ((s.indexAll tools documents).diagnostics tools d.1).answer = .ok [] ↔
      (tools.parser d.2).isOk = true := by
  have hk' : (s.indexAll tools documents).Keyed := (indexAll_steps s tools documents).keyed hk
  have hslot := slot_indexAll_of_mem hd hm s tools
  have hparser : tools.lenient.parser = tools.parser := rfl
  rw [diagnostics, (query_follows _ tools d.1 [] problemsOf).answer_ok_iff, query_notices hk',
    query_of_shown hp.lenient hk' d.1 [] problemsOf (·.problems) fun _ => rfl, hparser, hslot,
    Slot.shown_indexed (hk _), Option.elim_some, Except.ok.injEq, Contents.problems_reread hp]
  refine and_iff_right_of_imp fun hparses => ?_
  rcases hp.cases d.2 ((s.slot (identityOf d.1)).entry (identityOf d.1)).identity with
    ⟨failure, hf⟩ | ⟨tree, found, ht, hw⟩
  · simp [hf, Except.isOk, Except.toBool] at hparses
  · rw [Slot.notices_of_clean rfl (by rw [FileIndex.reindexed_of_found ht hw]; rfl)]
    exact Console.showsAll_nil _

/-- Whether a batch is indexed at once or opened for later, all queries after it are answered alike, and
the answer to the batch is how many of its documents are then found without problems. There is an answer
to the batch exactly if the console shows the warnings about it, and the queries are compared where the
console shows what they tell after either. -/
theorem seed_answers_as_opened (tools : Tools) (hp : tools.parser.Lawful)
    (evictOnClose verbose : Bool) (ops : List Operation) (documents : List (String × Text))
    (hd : (documents.map fun d => identityOf d.1).Nodup) :
    let s := (new evictOnClose verbose).run tools ops
    let seeded := (s.seed tools documents).service
    let opened := s.run tools (documents.map fun d => .opened d.1 (some d.2))
    ((∃ count, (s.seed tools documents).answer = .ok count) ↔ tools.Warns documents) ∧
    (tools.Warns documents →
      (∀ queries : List Operation, (∀ op ∈ queries, op.isQuery = true) →
        seeded.Heard tools queries → opened.Heard tools queries →
        seeded.answers tools queries = opened.answers tools queries) ∧
      seeded.workspace.keys = opened.workspace.keys ∧
      (s.seed tools documents).answer = .ok (documents.countP fun d => (tools.parser d.2).isOk) ∧
      documents.countP (fun d => (tools.parser d.2).isOk) =
        documents.countP fun d => (seeded.diagnostics tools d.1).answer = .ok []) := by
  intro s seeded opened
  have ho : s.Orderly := run_orderly tools evictOnClose verbose ops
  constructor
  · constructor
    · rintro ⟨count, hcount⟩
      rw [← seed_heard_iff hp s]
      exact ((seedFrom_follows s tools 0 documents).answer_ok_iff.mp hcount).1
    · exact fun hwarns => ⟨_, (seed_of_warns hp s hwarns).2⟩
  · intro hwarns
    obtain ⟨hservice, hcount⟩ := seed_of_warns hp s hwarns
    have halike : Alike tools.parser seeded opened := by
      simp only [seeded, hservice]
      exact indexAll_alike_openings ho.keyed hd
    have ho₁ : seeded.Orderly := ho.steps (seed_steps s tools documents)
    have ho₂ : opened.Orderly := ho.steps (run_steps s tools _)
    refine ⟨?_, halike.keys, hcount, ?_⟩
    · intro queries hq hseeded hopened
      -- Both histories are heard, so both may be answered on the lenient console.
      have hlenient : Alike tools.lenient.parser seeded opened := halike
      rw [hseeded.answers_eq, hopened.answers_eq]
      exact hlenient.answers hp.lenient ho₁ ho₂ hq
    · apply List.countP_congr
      intro d hm
      simp only [decide_eq_true_iff, seeded, hservice]
      exact (diagnostics_indexAll hp ho.keyed hd hm).symm

def brokenBatch : List (String × Text) := [("C:\\a", Text.ofString "f("), ("b", Text.ofString "f")]

/-- A clean index meets a text that does not parse, and a new document comes after it. -/
theorem seed_answers_as_opened_brokenBatch :
    (Tools.recursion "f").parser.Lawful ∧ (brokenBatch.map fun d => identityOf d.1).Nodup ∧
    let s := (new false false).run (.recursion "f") [.seed [("c:/a", Text.ofString "f")]]
    let queries := [.findDefinition "b" .origin, .diagnostics "c:/a", .listSymbols "C:/a"]
    (Tools.recursion "f").Warns brokenBatch ∧
    (s.seed (.recursion "f") brokenBatch).service.answers (.recursion "f") queries =
      (s.run (.recursion "f") (brokenBatch.map fun d => .opened d.1 (some d.2))).answers
        (.recursion "f") queries ∧
    (s.seed (.recursion "f") brokenBatch).answer = .ok 1 := by
  have hp : (Tools.recursion "f").parser.Lawful := Parser.recursion_lawful "f"
  have hd : (brokenBatch.map fun d => identityOf d.1).Nodup := by decide
  have hwarns : (Tools.recursion "f").Warns brokenBatch :=
    (seed_heard_iff hp (new false false) brokenBatch).mp (by decide +kernel)
  obtain ⟨hanswers, _, hcount, _⟩ := (seed_answers_as_opened _ hp false false
    [.seed [("c:/a", Text.ofString "f")]] brokenBatch hd).2 hwarns
  refine ⟨hp, hd, hwarns, hanswers _ (by decide) ?_ ?_, hcount⟩
  · decide +kernel
  · decide +kernel

/-- A batch is stopped at a document whose warning cannot be shown, where opening it for later is not. -/
theorem seed_unanswered_tagged :
    ((new false false).seed (.recursion "f")
      [("file:///w/[/a].lua", Text.ofString "f("), ("file:///w/b.lua", Text.ofString "f")]).answer ≠
        .ok 1 ∧
    ((new false false).seed (.recursion "f") [("file:///w/[/a].lua", Text.ofString "f("),
      ("file:///w/b.lua", Text.ofString "f")]).service.workspace.keys ≠
    ((new false false).run (.recursion "f") [.opened "file:///w/[/a].lua" (some (Text.ofString "f(")),
      .opened "file:///w/b.lua" (some (Text.ofString "f"))]).workspace.keys := by
  decide +kernel

end Service

end LuaSymbols
