import LuaSymbols.Proofs.Definitions
import LuaSymbols.Proofs.Uncached

namespace LuaSymbols

def Operation.isQuery : Operation → Bool
  | .listSymbols _ | .findDefinition _ _ | .diagnostics _ => true
  | _ => false

namespace Slot

def shown (c : Slot) (parser : Parser) : Option Contents :=
  (c.refreshed parser).index.map (·.contents)

theorem shown_refreshed (c : Slot) (parser : Parser) :
    (c.refreshed parser).shown parser = c.shown parser := by
  rw [shown, refreshed_refreshed, shown]

end Slot

namespace Service

variable {parser : Parser} {tools : Tools} {s s' t : Service}

/-- Both services track the same documents in the same order and show the same of each. -/
structure Alike (parser : Parser) (s s' : Service) : Prop where
  keys : s.workspace.keys = s'.workspace.keys
  shown : ∀ identity, (s.slot identity).shown parser = (s'.slot identity).shown parser

theorem Alike.symm (h : Alike parser s s') : Alike parser s' s :=
  ⟨h.keys.symm, fun i => (h.shown i).symm⟩

theorem Alike.trans (h : Alike parser s s') (h' : Alike parser s' t) : Alike parser s t :=
  ⟨h.keys.trans h'.keys, fun i => (h.shown i).trans (h'.shown i)⟩

theorem Refreshes.alike (h : Refreshes tools s s') (hk : s.Keyed) : Alike tools.parser s s' := by
  refine ⟨h.keys.symm, ?_⟩
  intro identity
  rcases h.slot hk identity with he | he <;> rw [he]
  exact (Slot.shown_refreshed _ tools.parser).symm

theorem query_of_shown {α : Type} (ht : tools.Lawful) (hk : s.Keyed) (uri : String) (unknown : α)
    (read : FileIndex → α) (read' : Contents → α) (hread : ∀ f, read f = read' f.contents) :
    (s.query tools uri unknown read).answer =
      .ok (((s.slot (identityOf uri)).shown tools.parser).elim unknown read') := by
  rw [query_answer ht hk, Slot.shown]
  cases ((s.slot (identityOf uri)).refreshed tools.parser).index with
  | none => rfl
  | some f => exact congrArg Except.ok (hread f)

/-- The name is read off the document asked about, the places off all documents. -/
theorem findDefinition_of_shown (ht : tools.Lawful) (ho : s.Orderly) (uri : String) (p : Position) :
    (s.findDefinition tools uri p).answer =
      .ok ((((s.slot (identityOf uri)).shown tools.parser).bind (·.occurrenceAt? p)).elim [] fun o =>
        declaredIn s.workspace.keys (fun i => ((s.slot i).shown tools.parser).elim [] (·.symbols))
          o.name) := by
  have hat : ((s.slot (identityOf uri)).shown tools.parser).bind (·.occurrenceAt? p) =
      ((s.slot (identityOf uri)).refreshed tools.parser).index.elim none (·.occurrenceAt? p) := by
    rw [Slot.shown]
    cases ((s.slot (identityOf uri)).refreshed tools.parser).index <;> rfl
  have hsymbols : (fun i => ((s.slot i).shown tools.parser).elim [] (·.symbols)) =
      s.freshSymbols tools.parser := by
    funext i
    rw [Slot.shown, freshSymbols]
    cases ((s.slot i).refreshed tools.parser).index <;> rfl
  rw [hat, hsymbols]
  cases ho' : ((s.slot (identityOf uri)).refreshed tools.parser).index.elim none
      (·.occurrenceAt? p) with
  | none => exact (findDefinition_of_none ht ho.keyed ho').2
  | some o =>
    obtain ⟨hservice, hanswer, _⟩ := findDefinition_of_some ht ho.keyed ho'
    have hrefreshes := s.findDefinition_refreshes tools uri p
    rw [hservice] at hrefreshes
    rw [hanswer, resolve_of_allFresh (ho.steps hrefreshes.steps)
      (allFresh_lookedUp ht ho.keyed (identityOf uri)), hrefreshes.keys]
    rfl

theorem perform_query_refreshes {op : Operation} (hq : op.isQuery = true) (s : Service)
    (tools : Tools) : Refreshes tools s (s.perform tools op).service := by
  cases op with
  | listSymbols uri => exact s.query_refreshes tools uri [] _
  | findDefinition uri p => exact s.findDefinition_refreshes tools uri p
  | diagnostics uri => exact s.query_refreshes tools uri [] _
  | _ => cases hq

/-- States that show the same give the same answers. -/
theorem Alike.perform_answer (h : Alike tools.parser s s') (ht : tools.Lawful) (ho : s.Orderly)
    (ho' : s'.Orderly) {op : Operation} (hq : op.isQuery = true) :
    (s.perform tools op).answer = (s'.perform tools op).answer := by
  cases op with
  | listSymbols uri =>
    simp only [perform, Reply.map, listSymbols,
      query_of_shown ht ho.keyed uri [] (·.symbols) (·.symbols) fun _ => rfl,
      query_of_shown ht ho'.keyed uri [] (·.symbols) (·.symbols) fun _ => rfl, h.shown]
  | findDefinition uri p =>
    simp only [perform, Reply.map, findDefinition_of_shown ht ho, findDefinition_of_shown ht ho',
      h.keys, h.shown]
  | diagnostics uri =>
    simp only [perform, Reply.map, diagnostics,
      query_of_shown ht ho.keyed uri [] problemsOf (·.problems) fun _ => rfl,
      query_of_shown ht ho'.keyed uri [] problemsOf (·.problems) fun _ => rfl, h.shown]
  | _ => cases hq

/-- No number of queries tells two services apart that show the same. -/
theorem Alike.answers (h : Alike tools.parser s s') (ht : tools.Lawful) (ho : s.Orderly)
    (ho' : s'.Orderly) {queries : List Operation} (hq : ∀ op ∈ queries, op.isQuery = true) :
    s.answers tools queries = s'.answers tools queries := by
  induction queries generalizing s s' with
  | nil => rfl
  | cons op rest ih =>
    have hop := hq op List.mem_cons_self
    have hr := perform_query_refreshes hop s tools
    have hr' := perform_query_refreshes hop s' tools
    have hnext := ((hr.alike ho.keyed).symm.trans h).trans (hr'.alike ho'.keyed)
    have hrest := ih hnext (ho.steps hr.steps) (ho'.steps hr'.steps)
      fun o hm => hq o (List.mem_cons_of_mem _ hm)
    simp only [Service.answers, h.perform_answer ht ho ho' hop, hrest]

end Service

end LuaSymbols
