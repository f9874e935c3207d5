import LuaSymbols.Proofs.Answers
import LuaSymbols.Proofs.Coherence
import Mathlib.Data.List.Induction

namespace LuaSymbols

variable {parser : Parser} {identity : String} {c c' : Slot}

namespace Slot

/-- If the index is clean then it is that of the text in store, which parses. -/
def Current (parser : Parser) (identity : String) (c : Slot) : Prop :=
  ∀ f, c.index = some f → f.dirty = false →
    ∃ text tree found, c.text = some text ∧ parser text = .ok tree ∧
      tree.walk identity = .ok found ∧ f.occurrences = found.occurrences.toList ∧
      f.symbols = found.symbols.toList ∧ f.lastError = none

/-- A clean index of a text that parses is that of the text. -/
theorem Settled.indexed_of_parses {f : FileIndex} {text : Text} {tree : Node} {found : Findings}
    (h : c.Settled parser identity) (hf : c.index = some f) (hclean : f.dirty = false)
    (ht : c.text = some text) (htree : parser text = .ok tree)
    (hfound : tree.walk identity = .ok found) : f.occurrences = found.occurrences.toList ∧
      f.symbols = found.symbols.toList ∧ f.lastError = none := by
  obtain ⟨text', ht', hsame⟩ := h f hf hclean
  cases ht.symm.trans ht'
  rw [Contents.reread_of_found htree hfound] at hsame
  refine ⟨?_, ?_, ?_⟩
  · exact (congrArg Contents.occurrences hsame).symm
  · exact (congrArg Contents.symbols hsame).symm
  · exact (congrArg Contents.lastError hsame).symm

/-- Indexing a text at once leaves a clean index behind that is not up to date exactly if the text
does not parse and the index was clean before. -/
theorem indexed_current_iff (hp : parser.Lawful) (hk : c.Keyed identity) (text : Text) :
    (c.indexed parser identity text).Current parser identity ↔
      ((∃ tree, parser text = .ok tree) ∨ (c.entry identity).dirty = true) := by
  have hid := hk.entry
  rcases hp.cases text identity with ⟨failure, hf⟩ | ⟨tree, found, ht, hw⟩
  · have hkept : (c.indexed parser identity text).index = some ((c.entry identity).fail failure) :=
      congrArg some (FileIndex.reindexed_of_failure hf)
    constructor
    · intro h
      right
      cases hd : (c.entry identity).dirty with
      | true => rfl
      | false =>
        -- A clean index would have to be free of failures, and this one has just got one.
        obtain ⟨_, _, _, _, _, _, _, _, hnone⟩ := h _ hkept hd
        cases hnone
    · rintro (⟨tree, ht⟩ | hdirty)
      · rw [hf] at ht
        cases ht
      · intro f hfail hclean
        cases hkept.symm.trans hfail
        exact absurd hdirty (by simp [show (c.entry identity).dirty = false from hclean])
  · rw [← hid] at hw
    have hnew : (c.indexed parser identity text).index = some ((c.entry identity).accept found) :=
      congrArg some (FileIndex.reindexed_of_found ht hw)
    rw [hid] at hw
    refine ⟨fun _ => .inl ⟨tree, ht⟩, fun _ => ?_⟩
    intro f hf hclean
    cases hnew.symm.trans hf
    exact ⟨text, tree, found, rfl, ht, hw, rfl, rfl, rfl⟩

theorem refreshed_current (hp : parser.Lawful) (hk : c.Keyed identity)
    (h : c.Current parser identity) : (c.refreshed parser).Current parser identity := by
  rcases c.refreshed_cases parser identity with he | ⟨f, text, hf, hd, _, he⟩ <;> rw [he]
  · exact h
  · exact (indexed_current_iff hp hk text).mpr (.inr (by simpa [Slot.entry, hf] using hd))

theorem opened_current (text : Option Text) : (c.opened identity text).Current parser identity := by
  intro f hf hclean
  cases hf
  cases hclean

theorem changed_current (h : c.Current parser identity) (text : Option Text) :
    (c.changed text).Current parser identity := by
  unfold Slot.changed
  split
  · intro f hf hclean
    cases hf
    cases hclean
  · exact h

end Slot

/-- A batch spoils an index if its last text for the document does not parse and meets a clean index.
Of a batch that is stopped the part counts that has been reached. -/
def Operation.Spoils (tools : Tools) (s : Service) : Operation → Prop
  | .seed documents => ∃ before uri text after failure f,
      s.taken tools documents = before ++ (uri, text) :: after ∧
      (∀ d ∈ after, identityOf d.1 ≠ identityOf uri) ∧
      tools.parser text = .error (.failure failure) ∧
      (s.seed tools before).service.workspace.get? (identityOf uri) = some f ∧ f.dirty = false
  | _ => False

namespace Service

def Current (parser : Parser) (s : Service) : Prop :=
  ∀ identity, (s.slot identity).Current parser identity

variable {tools : Tools} {s s' : Service}

theorem Current.refreshes (hp : tools.parser.Lawful) (hk : s.Keyed) (h : s.Current tools.parser)
    (hs : Refreshes tools s s') : s'.Current tools.parser := by
  intro i
  rcases hs.slot hk i with he | he <;> rw [he]
  · exact h i
  · exact Slot.refreshed_current hp (hk i) (h i)

theorem Current.without (h : s.Current parser) (identity : String) :
    (s.without identity).Current parser := by
  intro i
  rw [slot_without]
  split
  · intro f hf
    cases hf
  · exact h i

/-- A list with some element of a kind has a last one. -/
theorem exists_last {α : Type} {P : α → Prop} {l : List α} (h : ∃ a ∈ l, P a) :
    ∃ before a after, l = before ++ a :: after ∧ P a ∧ ∀ b ∈ after, ¬ P b := by
  induction l with
  | nil => simp at h
  | cons a l ih =>
    by_cases hl : ∃ b ∈ l, P b
    · obtain ⟨before, b, after, rfl, hb, hafter⟩ := ih hl
      exact ⟨a :: before, b, after, rfl, hb, hafter⟩
    · obtain ⟨b, hm, hb⟩ := h
      rcases List.mem_cons.mp hm with rfl | hm
      · exact ⟨[], b, l, rfl, hb, fun x hx hpx => hl ⟨x, hx, hpx⟩⟩
      · exact absurd ⟨b, hm, hb⟩ hl

/-- The last document of a batch about a file decides; those before it are overwritten. A batch that
was cut short counts as far as it was taken in. -/
theorem seed_current_iff (hp : tools.parser.Lawful) (hk : s.Keyed) (h : s.Current tools.parser)
    (documents : List (String × Text)) : (s.seed tools documents).service.Current tools.parser ↔
      ¬ (Operation.seed documents).Spoils tools s := by
  have hkeyed : ∀ before, (s.indexAll tools before).Keyed :=
    fun before => (indexAll_steps s tools before).keyed hk
  rw [seed_service]
  constructor
  · rintro hcur ⟨before, uri, text, after, failure, f, htaken, hlast, hfail, hf, hclean⟩
    have hslot := hcur (identityOf uri)
    rw [htaken, slot_indexAll_last hlast, Slot.indexed_current_iff hp (hkeyed before _)] at hslot
    rw [seed_service, taken_of_append htaken] at hf
    rcases hslot with ⟨tree, ht⟩ | hdirty
    · rw [hfail] at ht
      cases ht
    · simp [Slot.entry, slot, hf, hclean] at hdirty
  · intro hspoils i
    -- Only the last document about a file counts, so the batch is cut there.
    by_cases hnamed : ∃ d ∈ s.taken tools documents, identityOf d.1 = i
    · obtain ⟨before, ⟨uri, text⟩, after, htaken, rfl, hlast⟩ := exists_last hnamed
      rw [htaken, slot_indexAll_last hlast, Slot.indexed_current_iff hp (hkeyed before _)]
      rcases hp.cases text (identityOf uri) with ⟨failure, hfail⟩ | ⟨tree, _, ht, _⟩
      · right
        cases hf : (s.indexAll tools before).workspace.get? (identityOf uri) with
        | none => simp [Slot.entry, slot, hf, FileIndex.new]
        | some f =>
          cases hd : f.dirty with
          | true => simp [Slot.entry, slot, hf, hd]
          | false =>
            rw [← taken_of_append htaken, ← seed_service] at hf
            exact absurd ⟨before, uri, text, after, failure, f, htaken, hlast, hfail, hf, hd⟩ hspoils
      · exact .inl ⟨tree, ht⟩
    · rw [slot_indexAll_others (fun d hd he => hnamed ⟨d, hd, he⟩)]
      exact h i

/-- Of all operations only a batch can spoil a clean index. -/
theorem perform_current_iff (hp : tools.parser.Lawful) (hk : s.Keyed) (h : s.Current tools.parser)
    (op : Operation) :
    (s.perform tools op).service.Current tools.parser ↔ ¬ op.Spoils tools s := by
  have hopened : ∀ uri text, (s.opened uri text).Current tools.parser := by
    intro uri text i
    rw [slot_opened]
    split
    · exact Slot.opened_current text
    · exact h i
  cases op with
  | seed documents => exact seed_current_iff hp hk h documents
  | opened uri text => exact ⟨fun _ => id, fun _ => hopened uri text⟩
  | saved uri text => exact ⟨fun _ => id, fun _ => hopened uri text⟩
  | changed uri text =>
    refine ⟨fun _ => id, fun _ i => ?_⟩
    change ((s.changed uri text).slot i).Current tools.parser i
    rw [slot_changed]
    split
    · exact Slot.changed_current (h i) text
    · exact h i
  | closed uri =>
    refine ⟨fun _ => id, fun _ => ?_⟩
    change (s.closed tools uri).service.Current tools.parser
    rw [closed_service]
    split
    · exact h.without _
    · exact h
  | evict uri =>
    refine ⟨fun _ => id, fun _ => ?_⟩
    change (s.evict tools uri).service.Current tools.parser
    rw [evict_service]
    exact h.without _
  | listSymbols uri =>
    exact ⟨fun _ => id, fun _ => h.refreshes hp hk (s.query_refreshes tools uri [] _)⟩
  | findDefinition uri p =>
    exact ⟨fun _ => id, fun _ => h.refreshes hp hk (s.findDefinition_refreshes tools uri p)⟩
  | diagnostics uri =>
    exact ⟨fun _ => id, fun _ => h.refreshes hp hk (s.query_refreshes tools uri [] _)⟩

/-- Along a history every clean index is up to date exactly if no batch of it spoils one. -/
theorem run_current_iff (hp : tools.parser.Lawful) (hk : s.Keyed) (h : s.Current tools.parser)
    (ops : List Operation) :
    (∀ before after, ops = before ++ after → (s.run tools before).Current tools.parser) ↔
      ∀ before op after, ops = before ++ op :: after → ¬ op.Spoils tools (s.run tools before) := by
  constructor
  · rintro hcur before op after rfl
    have hbefore := hcur before (op :: after) rfl
    have hnext := hcur (before ++ [op]) after (by simp)
    rw [run_append] at hnext
    exact (perform_current_iff hp ((run_steps s tools before).keyed hk) hbefore op).mp hnext
  · intro hspoils before
    -- Each state owes being current to the one before it, so the history is taken apart at its end.
    induction before using List.reverseRecOn with
    | nil => exact fun _ _ => h
    | append_singleton before op ih =>
      rintro after rfl
      have hbefore := ih (op :: after) (by simp)
      rw [run_append]
      exact (perform_current_iff hp ((run_steps s tools before).keyed hk) hbefore op).mpr
        (hspoils before op after (by simp))

/-- A clean index has a text in store, and if that text parses the index is that of the text. All
clean indexes of a history are up to date exactly if no batch of it brings a text that does not parse
to a clean index as its last text for the document. What the console refuses does not matter. -/
theorem clean_index_current_iff (tools : Tools) (hp : tools.parser.Lawful)
    (evictOnClose verbose : Bool) (ops : List Operation) :
    (∀ identity f, ((new evictOnClose verbose).run tools ops).workspace.get? identity = some f →
      f.dirty = false → ∃ text,
        ((new evictOnClose verbose).run tools ops).documents.get? identity = some text ∧
        ∀ tree, tools.parser text = .ok tree → ∃ found, tree.walk identity = .ok found ∧
          f.occurrences = found.occurrences.toList ∧ f.symbols = found.symbols.toList ∧
          f.lastError = none) ∧
    ((∀ before after, ops = before ++ after →
        ((new evictOnClose verbose).run tools before).Current tools.parser) ↔
      ∀ before op after, ops = before ++ op :: after →
        ¬ op.Spoils tools ((new evictOnClose verbose).run tools before)) := by
  have hnew : (new evictOnClose verbose).Current tools.parser := fun _ _ h => nomatch h
  refine ⟨?_, run_current_iff hp (new_keyed _ _) hnew ops⟩
  intro identity f hf hclean
  have hsettled := (run_coherent tools evictOnClose verbose ops).settled identity
  obtain ⟨text, ht, _⟩ := hsettled f hf hclean
  refine ⟨text, ht, ?_⟩
  intro tree htree
  obtain ⟨found, hfound⟩ := hp.walks text tree htree identity
  exact ⟨found, hfound, hsettled.indexed_of_parses hf hclean ht htree hfound⟩

/-- The same document is indexed twice, the second time with a text that does not parse. -/
def spoilingSeeds : List Operation :=
  [.seed [("a", Text.ofString "f")], .seed [("a", Text.ofString "f(")]]

/-- An index that is clean and knows of a failure is not up to date. -/
theorem not_current_of_failure {identity : String} {failure : ParseFailure}
    (h : (s.workspace.get? identity).map (fun f => (f.dirty, f.lastError)) =
      some (false, some failure)) : ¬ s.Current tools.parser := by
  intro hcurrent
  obtain ⟨f, hf, he⟩ := Option.map_eq_some_iff.mp h
  obtain ⟨hclean, hfailure⟩ := Prod.mk.inj he
  obtain ⟨_, _, _, _, _, _, _, _, hnone⟩ := hcurrent identity f hf hclean
  cases hnone.symm.trans hfailure

/-- A second batch with a text that fails leaves the index of the first one clean. -/
theorem spoilingSeeds_not_current :
    ¬ ((new false false).run (.recursion "f") spoilingSeeds).Current (Tools.recursion "f").parser := by
  have hindex : (((new false false).run (.recursion "f") spoilingSeeds).workspace.get? "a").map
      (fun f => (f.dirty, f.lastError)) = some (false, some ⟨.unexpected, some .origin⟩) := by
    decide +kernel
  exact not_current_of_failure hindex

theorem clean_index_current_iff_spoilingSeeds :
    (Tools.recursion "f").parser.Lawful ∧
    (Operation.seed [("a", Text.ofString "f(")]).Spoils (.recursion "f")
      ((new false false).run (.recursion "f") [.seed [("a", Text.ofString "f")]]) ∧
    ¬ (∀ before after, spoilingSeeds = before ++ after →
        ((new false false).run (.recursion "f") before).Current (Tools.recursion "f").parser) := by
  have hp : (Tools.recursion "f").parser.Lawful := Parser.recursion_lawful "f"
  have hclean : (((new false false).run (.recursion "f")
      [.seed [("a", Text.ofString "f")]]).workspace.get? "a").map (·.dirty) = some false := by
    decide +kernel
  obtain ⟨f, hf, hd⟩ := Option.map_eq_some_iff.mp hclean
  have htaken : ((new false false).run (.recursion "f") [.seed [("a", Text.ofString "f")]]).taken
      (.recursion "f") [("a", Text.ofString "f(")] = [("a", Text.ofString "f(")] := by decide +kernel
  have hfails : Parser.recursion "f" (Text.ofString "f(") =
      .error (.failure ⟨.unexpected, some .origin⟩) := Parser.recursion_of_ne "f" (by decide)
  have hspoils : (Operation.seed [("a", Text.ofString "f(")]).Spoils (.recursion "f")
      ((new false false).run (.recursion "f") [.seed [("a", Text.ofString "f")]]) :=
    ⟨[], "a", _, [], _, f, htaken, by simp, hfails, hf, hd⟩
  refine ⟨hp, hspoils, fun h => ?_⟩
  exact (clean_index_current_iff (.recursion "f") hp false false spoilingSeeds).2.mp h _ _ [] rfl hspoils

end Service

end LuaSymbols
