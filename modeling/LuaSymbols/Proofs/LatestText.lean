import LuaSymbols.Proofs.Answers
import LuaSymbols.Proofs.Coherence

namespace LuaSymbols

/-- The operation gives a text to a document; later pairs of a batch give it no other. A change counts
only if the document is tracked, and a pair of a batch only if nothing stops the batch before it. -/
def Operation.Writes (tools : Tools) (s : Service) (identity : String) (text : Text) : Operation → Prop
  | .opened uri given | .saved uri given => identityOf uri = identity ∧ given = some text
  | .changed uri given =>
    identityOf uri = identity ∧ given = some text ∧ s.workspace.has identity = true
  | .seed documents => ∃ before uri after,
      s.taken tools documents = before ++ (uri, text) :: after ∧
      identityOf uri = identity ∧ ∀ d ∈ after, identityOf d.1 = identity → d.2 = text
  | _ => False

/-- The operation neither gives a document another text nor forgets it. -/
def Operation.Keeps (evictOnClose : Bool) (identity : String) (text : Text) : Operation → Prop
  | .opened uri given | .saved uri given | .changed uri given =>
    identityOf uri = identity → given = none ∨ given = some text
  | .closed uri => evictOnClose = true → identityOf uri ≠ identity
  | .evict uri => identityOf uri ≠ identity
  | .seed documents => ∀ d ∈ documents, identityOf d.1 = identity → d.2 = text
  | .listSymbols _ | .findDefinition _ _ | .diagnostics _ => True

namespace Slot

def Holds (c : Slot) (text : Text) : Prop := c.text = some text ∧ c.index.isSome = true

variable {c : Slot} {text : Text}

theorem Holds.opened (h : c.Holds text) (identity : String) {given : Option Text}
    (hgiven : given = none ∨ given = some text) : (c.opened identity given).Holds text := by
  refine ⟨?_, rfl⟩
  rcases hgiven with rfl | rfl
  · simpa [Slot.opened] using h.1
  · rfl

/-- A change to the text that a document already has, or to none, takes nothing away. -/
theorem Holds.changed (h : c.Holds text) {given : Option Text}
    (hgiven : given = none ∨ given = some text) : (c.changed given).Holds text := by
  obtain ⟨f, hf⟩ := Option.isSome_iff_exists.mp h.2
  simp only [Slot.changed, hf]
  refine ⟨?_, rfl⟩
  rcases hgiven with rfl | rfl
  · simpa using h.1
  · rfl

theorem Holds.refreshed (h : c.Holds text) (parser : Parser) : (c.refreshed parser).Holds text :=
  ⟨h.1, by simpa [Slot.refreshed] using h.2⟩

end Slot

namespace Service

variable {tools : Tools} {s s' : Service} {identity : String} {text : Text}

/-- By induction over the documents: those about other files do not touch the slot. -/
theorem indexAll_holds {documents : List (String × Text)}
    (hkeep : ∀ d ∈ documents, identityOf d.1 = identity → d.2 = text)
    (h : (s.slot identity).Holds text) : ((s.indexAll tools documents).slot identity).Holds text := by
  induction documents generalizing s with
  | nil => exact h
  | cons d rest ih =>
    apply ih (fun e he => hkeep e (List.mem_cons_of_mem _ he))
    rw [slot_index]
    split
    · rename_i he
      rw [hkeep d List.mem_cons_self he]
      exact ⟨rfl, rfl⟩
    · exact h

/-- A batch that is cut short takes in documents of the batch only. -/
theorem mem_of_mem_taken {documents : List (String × Text)} {d : String × Text}
    (h : d ∈ s.taken tools documents) : d ∈ documents := by
  induction documents generalizing s with
  | nil => exact h
  | cons e rest ih =>
    rw [taken] at h
    rcases List.mem_cons.mp h with rfl | h
    · exact List.mem_cons_self
    · split at h
      · exact List.mem_cons_of_mem _ (ih h)
      · cases h

theorem opened_holds (h : (s.slot identity).Holds text) {uri : String} {given : Option Text}
    (hgiven : identityOf uri = identity → given = none ∨ given = some text) :
    ((s.opened uri given).slot identity).Holds text := by
  rw [slot_opened]
  split
  · rename_i he
    exact h.opened identity (hgiven he)
  · exact h

theorem without_holds (h : (s.slot identity).Holds text) {other : String}
    (hne : other ≠ identity) : ((s.without other).slot identity).Holds text := by
  rw [slot_without, if_neg hne]
  exact h

theorem Refreshes.holds (hs : Refreshes tools s s') (hk : s.Keyed)
    (h : (s.slot identity).Holds text) : (s'.slot identity).Holds text := by
  rcases hs.slot hk identity with he | he <;> rw [he]
  · exact h
  · exact h.refreshed tools.parser

/-- A document keeps its text through every operation that does not take it away, also through one
that is stopped. -/
theorem perform_holds (hk : s.Keyed) (h : (s.slot identity).Holds text) {op : Operation}
    (hop : op.Keeps s.evictOnClose identity text) :
    ((s.perform tools op).service.slot identity).Holds text := by
  cases op with
  | opened uri given => exact opened_holds h hop
  | saved uri given => exact opened_holds h hop
  | changed uri given =>
    change ((s.changed uri given).slot identity).Holds text
    rw [slot_changed]
    split
    · rename_i he
      exact h.changed (hop he)
    · exact h
  | closed uri =>
    change ((s.closed tools uri).service.slot identity).Holds text
    rw [closed_service]
    split
    · rename_i hevict
      exact without_holds h (hop hevict)
    · exact h
  | evict uri =>
    change ((s.evict tools uri).service.slot identity).Holds text
    rw [evict_service]
    exact without_holds h hop
  | seed documents =>
    change ((s.seed tools documents).service.slot identity).Holds text
    rw [seed_service]
    exact indexAll_holds (fun d hd => hop d (mem_of_mem_taken hd)) h
  | listSymbols uri => exact (s.query_refreshes tools uri [] _).holds hk h
  | findDefinition uri p => exact (s.findDefinition_refreshes tools uri p).holds hk h
  | diagnostics uri => exact (s.query_refreshes tools uri [] _).holds hk h

/-- From one operation to a history. The setting about closed documents never changes on the way. -/
theorem run_holds (hk : s.Keyed) (h : (s.slot identity).Holds text)
    {ops : List Operation} (hops : ∀ op ∈ ops, op.Keeps s.evictOnClose identity text) :
    ((s.run tools ops).slot identity).Holds text := by
  induction ops generalizing s with
  | nil => exact h
  | cons op rest ih =>
    have hsteps := s.perform_steps tools op
    apply ih (hsteps.keyed hk) (perform_holds hk h (hops op List.mem_cons_self))
    intro o ho
    rw [hsteps.options.1]
    exact hops o (List.mem_cons_of_mem _ ho)

theorem opened_writes (s : Service) {uri : String} (he : identityOf uri = identity) (text : Text) :
    ((s.opened uri (some text)).slot identity).Holds text := by
  rw [slot_opened, if_pos he]
  exact ⟨rfl, rfl⟩

/-- A write leaves its text with the document. -/
theorem perform_writes {op : Operation} (hop : op.Writes tools s identity text) :
    ((s.perform tools op).service.slot identity).Holds text := by
  cases op with
  | opened uri given =>
    obtain ⟨he, rfl⟩ := hop
    exact opened_writes s he text
  | saved uri given =>
    obtain ⟨he, rfl⟩ := hop
    exact opened_writes s he text
  | changed uri given =>
    obtain ⟨he, rfl, hhas⟩ := hop
    obtain ⟨f, hf⟩ := Table.has_iff.mp hhas
    change ((s.changed uri (some text)).slot identity).Holds text
    rw [slot_changed, if_pos he]
    simp only [Slot.changed, slot, hf]
    exact ⟨rfl, rfl⟩
  | seed documents =>
    obtain ⟨before, uri, after, htaken, he, hafter⟩ := hop
    change ((s.seed tools documents).service.slot identity).Holds text
    have hsplit : s.indexAll tools (before ++ (uri, text) :: after) =
        ((s.indexAll tools before).index tools uri text).service.indexAll tools after := by
      simp only [indexAll, List.foldl_append, List.foldl_cons]
    rw [seed_service, htaken, hsplit]
    apply indexAll_holds hafter
    rw [slot_index, if_pos he]
    exact ⟨rfl, rfl⟩
  | closed uri => cases hop
  | evict uri => cases hop
  | listSymbols uri => cases hop
  | findDefinition uri p => cases hop
  | diagnostics uri => cases hop

/-- In a coherent state the answers about a document are read off its text, whatever index there is.
They are given exactly if the console shows what the refresh of the document tells. -/
theorem query_of_holds {α : Type} (hp : tools.parser.Lawful) (hc : s.Coherent tools.parser)
    (h : (s.slot identity).Holds text) {uri : String} (huri : identityOf uri = identity)
    (unknown : α) (read : FileIndex → α) (read' : Contents → α)
    (hread : ∀ f, read f = read' f.contents) :
    ∃ known : Contents, ∀ a, (s.query tools uri unknown read).answer = .ok a ↔
      tools.console.ShowsAll ((s.slot identity).notices tools.parser s.verbose identity) ∧
        read' (known.reread tools.parser identity text) = a := by
  obtain ⟨f, hf⟩ := Option.isSome_iff_exists.mp h.2
  have hcontents := (hc.settled identity).contents_freshened hf h.1 (hc.keyed identity f hf)
  refine ⟨f.contents, fun a => ?_⟩
  have hfull : (s.query tools.lenient uri unknown read).answer =
      .ok (read' (f.contents.reread tools.parser identity text)) := by
    rw [query_answer hp.lenient hc.keyed, huri, ← hcontents, ← hread]
    simp [Slot.refreshed, hf, Tools.lenient]
  rw [(query_follows s tools uri unknown read).answer_ok_iff, query_notices hc.keyed, hfull, huri,
    Except.ok.injEq]

/-- The latest text of a document decides the answers about it, under each of its names, and they are
given unless the console refuses a line. If the text parses there is such a line only for those who
debug, and if it does not parse it is the warning. -/
theorem latest_text_answers (tools : Tools) (hp : tools.parser.Lawful) (evictOnClose verbose : Bool)
    (before after : List Operation) (op : Operation) (identity uri : String) (text : Text)
    (hwrites : op.Writes tools ((new evictOnClose verbose).run tools before) identity text)
    (hkeeps : ∀ o ∈ after, o.Keeps evictOnClose identity text) (huri : identityOf uri = identity) :
    let s := (new evictOnClose verbose).run tools (before ++ op :: after)
    (∀ tree, tools.parser text = .ok tree → ∃ found, tree.walk identity = .ok found ∧
      ((s.listSymbols tools uri).answer = .ok found.symbols.toList ↔
        s.Heard tools [.listSymbols uri]) ∧
      ((s.diagnostics tools uri).answer = .ok [] ↔ s.Heard tools [.diagnostics uri]) ∧
      ((verbose = true → tools.console.shows (.rebuilt identity found.symbols.toList.length) = true) →
        s.Heard tools [.listSymbols uri] ∧ s.Heard tools [.diagnostics uri])) ∧
    (∀ failure, tools.parser text = .error (.failure failure) →
      ((s.diagnostics tools uri).answer =
          .ok [⟨failure.message, .point (failure.position.getD .origin)⟩] ↔
        s.Heard tools [.diagnostics uri]) ∧
      (tools.console.shows (.cannotParse identity failure) = true →
        s.Heard tools [.diagnostics uri])) := by
  intro s
  have hc : s.Coherent tools.parser := run_coherent tools evictOnClose verbose _
  have hverbose : s.verbose = verbose := (run_steps (new evictOnClose verbose) tools _).options.2
  -- The operation puts the text in, and those after it leave it there.
  have hholds : (s.slot identity).Holds text := by
    have hsteps := (run_steps (new evictOnClose verbose) tools before).trans
      (perform_steps _ tools op)
    have hkeyed := Steps.keyed hsteps (new_keyed evictOnClose verbose)
    simp only [s, run_append]
    apply run_holds hkeyed (perform_writes hwrites)
    rw [(Steps.options hsteps).1]
    exact hkeeps
  rw [heard_listSymbols hc.keyed, heard_diagnostics hc.keyed, huri]
  obtain ⟨known, hproblems⟩ := query_of_holds hp hc hholds huri [] problemsOf (·.problems)
    fun _ => rfl
  constructor
  · intro tree htree
    obtain ⟨found, hfound⟩ := hp.walks text tree htree identity
    obtain ⟨known', hsymbols⟩ := query_of_holds hp hc hholds huri [] (·.symbols) (·.symbols)
      fun _ => rfl
    rw [Contents.reread_of_found htree hfound] at hproblems hsymbols
    -- A refresh that succeeds has one thing to tell, and that only for debugging.
    have hheard (hshows : verbose = true →
        tools.console.shows (.rebuilt identity found.symbols.toList.length) = true) :
        tools.console.ShowsAll ((s.slot identity).notices tools.parser s.verbose identity) := by
      intro n hn
      obtain ⟨hv, rfl⟩ := Slot.mem_notices_of_found hholds.1 htree hfound hn
      exact hshows (hverbose ▸ hv)
    refine ⟨found, hfound, ?_, ?_, fun hshows => ⟨hheard hshows, hheard hshows⟩⟩
    · exact (hsymbols _).trans (and_iff_left rfl)
    · exact (hproblems _).trans (and_iff_left rfl)
  · intro failure hfailure
    rw [Contents.reread_of_failure hfailure] at hproblems
    refine ⟨(hproblems _).trans (and_iff_left rfl), ?_⟩
    intro hshows n hn
    rw [Slot.mem_notices_of_failure hholds.1 hfailure hn]
    exact hshows

/-- Between a write under one name and the queries under another the document is reported as changed
and closed, and a second document does not parse. -/
theorem latest_text_answers_renamed :
    (Tools.recursion "f").parser.Lawful ∧
    (Operation.opened "C:\\a" (some (Text.ofString "f"))).Writes (.recursion "f")
      ((new false false).run (.recursion "f") []) "c:/a" (Text.ofString "f") ∧
    (∀ o ∈ [Operation.changed "c:/a" none, .seed [("b", Text.ofString "f(")], .diagnostics "b",
      .closed "c:/a"], o.Keeps false "c:/a" (Text.ofString "f")) ∧
    identityOf "C:/a" = "c:/a" ∧
    (((new false false).run (.recursion "f") [.opened "C:\\a" (some (Text.ofString "f")),
      .changed "c:/a" none, .seed [("b", Text.ofString "f(")], .diagnostics "b",
      .closed "c:/a"]).diagnostics (.recursion "f") "C:/a").answer = .ok [] := by
  have hp : (Tools.recursion "f").parser.Lawful := Parser.recursion_lawful "f"
  have hb : identityOf "b" ≠ "c:/a" := by decide
  have hwrites : (Operation.opened "C:\\a" (some (Text.ofString "f"))).Writes (.recursion "f")
      ((new false false).run (.recursion "f") []) "c:/a" (Text.ofString "f") := ⟨by decide, rfl⟩
  have hkeeps : ∀ o ∈ [Operation.changed "c:/a" none, .seed [("b", Text.ofString "f(")],
      .diagnostics "b", .closed "c:/a"], o.Keeps false "c:/a" (Text.ofString "f") := by
    simp [Operation.Keeps, hb]
  have huri : identityOf "C:/a" = "c:/a" := by decide
  have hanswers := latest_text_answers _ hp false false [] _ _ _ _ _ hwrites hkeeps huri
  obtain ⟨_, _, _, hdiagnostics, hheard⟩ := hanswers.1 _ rfl
  exact ⟨hp, hwrites, hkeeps, huri, hdiagnostics.mpr (hheard nofun).2⟩

/-- A document whose text does not parse and whose name ends a style that nothing has begun has no
diagnostics at all. -/
theorem latest_text_unanswered_tagged :
    Parser.recursion "f" (Text.ofString "f(") = .error (.failure ⟨.unexpected, some .origin⟩) ∧
    (((new false false).run (.recursion "f")
        [.opened "file:///w/[/a].lua" (some (Text.ofString "f("))]).diagnostics (.recursion "f")
      "file:///w/[/a].lua").answer.isOk = false :=
  ⟨Parser.recursion_of_ne "f" (by decide), by decide +kernel⟩

end Service

end LuaSymbols
