import LuaSymbols.Proofs.Identities
import LuaSymbols.Proofs.Indexing
import Mathlib.Logic.Relation

namespace LuaSymbols

/-- What a service knows of one document. -/
structure Slot where
  text : Option Text
  index : Option FileIndex

namespace Slot

def empty : Slot := ⟨none, none⟩

def entry (c : Slot) (identity : String) : FileIndex := c.index.getD (.new identity)

def opened (c : Slot) (identity : String) (text : Option Text) : Slot :=
  ⟨text.or c.text, some (c.entry identity).markDirty⟩

def changed (c : Slot) (text : Option Text) : Slot :=
  match c.index with
  | some f => ⟨text.or c.text, some f.markDirty⟩
  | none => c

def indexed (c : Slot) (parser : Parser) (identity : String) (text : Text) : Slot :=
  ⟨some text, some ((c.entry identity).reindexed text parser)⟩

def refreshed (c : Slot) (parser : Parser) : Slot :=
  ⟨c.text, c.index.map fun f => f.freshened c.text parser⟩

/-- All that can happen to the slot of a document in one move. -/
inductive Move (parser : Parser) (identity : String) (c : Slot) : Slot → Prop
  | opened (text : Option Text) : Move parser identity c (c.opened identity text)
  | changed (text : Option Text) : Move parser identity c (c.changed text)
  | forgotten : Move parser identity c empty
  | indexed (text : Text) : Move parser identity c (c.indexed parser identity text)
  | refreshed : Move parser identity c (c.refreshed parser)

def Keyed (c : Slot) (identity : String) : Prop := ∀ f, c.index = some f → f.identity = identity

theorem Keyed.entry {c : Slot} {identity : String} (h : c.Keyed identity) :
    (c.entry identity).identity = identity := by
  unfold Slot.entry
  cases hi : c.index with
  | none => rfl
  | some f => exact h f hi

/-- One case for each move; none of them puts an index under another name. -/
theorem Move.keyed {parser : Parser} {identity : String} {c c' : Slot}
    (hm : Move parser identity c c') (h : c.Keyed identity) : c'.Keyed identity := by
  intro f hf
  cases hm with
  | opened text =>
    cases hf
    exact h.entry
  | changed text =>
    unfold Slot.changed at hf
    split at hf
    · rename_i g hg
      cases hf
      exact h g hg
    · exact h f hf
  | forgotten => cases hf
  | indexed text =>
    cases hf
    rw [FileIndex.reindexed_identity]
    exact h.entry
  | refreshed =>
    obtain ⟨g, hg, rfl⟩ := Option.map_eq_some_iff.mp hf
    rw [FileIndex.freshened_identity]
    exact h g hg

/-- A refresh leaves a slot as it is or indexes the text in store. -/
theorem refreshed_cases (c : Slot) (parser : Parser) (identity : String) :
    c.refreshed parser = c ∨ ∃ f text, c.index = some f ∧ f.dirty = true ∧ c.text = some text ∧
      c.refreshed parser = c.indexed parser identity text := by
  obtain ⟨text, index⟩ := c
  cases index with
  | none => exact .inl rfl
  | some f =>
    cases hd : f.dirty with
    | false => exact .inl (by simp [refreshed, FileIndex.freshened_of_clean hd])
    | true =>
      cases text with
      | none => exact .inl rfl
      | some text =>
        refine .inr ⟨f, text, rfl, hd, rfl, ?_⟩
        simp [refreshed, indexed, entry, FileIndex.freshened, hd]

theorem refreshed_refreshed (c : Slot) (parser : Parser) :
    (c.refreshed parser).refreshed parser = c.refreshed parser := by
  obtain ⟨text, index⟩ := c
  cases index <;> simp [refreshed, FileIndex.freshened_freshened]

end Slot

namespace Workspace

/-- Tracking adds an entry where there is none and touches no other. -/
theorem get?_track (w : Workspace) (identity other : String) :
    (w.track identity).get? other = if identity = other then some (w.entry identity) else w.get? other := by
  unfold track entry
  split
  · rename_i hhas
    obtain ⟨f, hf⟩ := Table.has_iff.mp hhas
    split
    · rename_i he
      rw [← he, hf]
      rfl
    · rfl
  · rename_i hhas
    rw [Table.get?_put, Table.not_has_iff.mp hhas]
    rfl

theorem get?_track_self (w : Workspace) (identity : String) :
    (w.track identity).get? identity = some (w.entry identity) := by
  rw [get?_track, if_pos rfl]

theorem get?_markDirty (w : Workspace) (identity other : String) :
    (w.markDirty identity).get? other =
      if identity = other then (w.get? other).map (·.markDirty) else w.get? other := by
  unfold markDirty
  split
  · rename_i f hf
    rw [Table.get?_put]
    split
    · rename_i he
      rw [← he, hf]
      rfl
    · rfl
  · rename_i hnone
    split
    · rename_i he
      rw [← he, hnone]
      rfl
    · rfl

end Workspace

namespace Service

def slot (s : Service) (identity : String) : Slot :=
  ⟨s.documents.get? identity, s.workspace.get? identity⟩

def Keyed (s : Service) : Prop := ∀ identity, (s.slot identity).Keyed identity

variable {s : Service} {tools : Tools}

theorem documents_remember (s : Service) (uri : String) (text : Option Text) (other : String) :
    (s.remember uri text).documents.get? other =
      if identityOf uri = other then text.or (s.documents.get? other) else s.documents.get? other := by
  cases text with
  | none => simp [remember]
  | some text => simp [remember, Table.get?_put]

@[simp] theorem workspace_remember (s : Service) (uri : String) (text : Option Text) :
    (s.remember uri text).workspace = s.workspace := by
  cases text <;> rfl

/-- Opening a document is a matter of its own slot. The lemmas after this one say the same of the
other operations. -/
theorem slot_opened (s : Service) (uri : String) (text : Option Text) (other : String) :
    (s.opened uri text).slot other =
      if identityOf uri = other then (s.slot other).opened other text else s.slot other := by
  simp only [opened, slot, documents_remember, workspace_remember, Workspace.get?_markDirty,
    Workspace.get?_track]
  split
  · rename_i he
    simp [Slot.opened, Slot.entry, Workspace.entry, he]
  · rfl

/-- A change without a text keeps the old one and still marks the document; one that is not tracked has
no slot to change. -/
theorem slot_changed (s : Service) (uri : String) (text : Option Text) (other : String) :
    (s.changed uri text).slot other =
      if identityOf uri = other then (s.slot other).changed text else s.slot other := by
  unfold changed
  dsimp only
  split
  · rename_i hhas
    simp only [slot, documents_remember, workspace_remember, Workspace.get?_markDirty,
      identityOf_identityOf]
    split
    · rename_i he
      rw [he] at hhas
      obtain ⟨f, hf⟩ := Table.has_iff.mp hhas
      simp [Slot.changed, hf]
    · rfl
  · rename_i hhas
    split
    · rename_i he
      rw [he] at hhas
      have hnone := Table.not_has_iff.mp hhas
      simp [slot, Slot.changed, hnone]
    · rfl

theorem slot_without (s : Service) (identity other : String) :
    (s.without identity).slot other = if identity = other then .empty else s.slot other := by
  simp only [without, slot, Table.get?_remove]
  split <;> rfl

theorem evict_service (s : Service) (tools : Tools) (uri : String) :
    (s.evict tools uri).service = s.without (identityOf uri) := by
  simp only [evict]
  split
  · exact debug_service _ _ _ _
  · rfl

theorem closed_service (s : Service) (tools : Tools) (uri : String) :
    (s.closed tools uri).service = if s.evictOnClose then s.without (identityOf uri) else s := by
  simp only [closed]
  split
  · exact evict_service s tools uri
  · rfl

/-- Whatever comes of the text, it is in store and the document is tracked. -/
theorem index_service (s : Service) (tools : Tools) (uri : String) (text : Text) :
    (s.index tools uri text).service =
      { s.remember uri (some text) with
        workspace := (s.workspace.track (identityOf uri)).put (identityOf uri)
          ((s.workspace.entry (identityOf uri)).reindexed text tools.parser) } := by
  have htracked := Workspace.get?_track_self s.workspace (identityOf uri)
  have hentry : (s.workspace.track (identityOf uri)).entry (identityOf uri) =
      s.workspace.entry (identityOf uri) := by
    rw [Workspace.entry, htracked, Option.getD_some]
  simp only [index, workspace_remember, hentry]
  cases hr : (s.workspace.entry (identityOf uri)).rebuild text tools.parser with
  | error fault =>
    -- The walk broke off, and the index is the one that tracking has put there.
    have hkeep : (s.workspace.entry (identityOf uri)).reindexed text tools.parser =
        s.workspace.entry (identityOf uri) := by simp only [FileIndex.reindexed, hr]
    rw [hkeep, Table.put_get? htracked]
  | ok result =>
    obtain ⟨f, failure⟩ := result
    have hnew : (s.workspace.entry (identityOf uri)).reindexed text tools.parser = f := by
      simp only [FileIndex.reindexed, hr]
    rw [hnew]
    cases failure with
    | none => rfl
    | some failure => exact tell_service _ _ _ _

/-- Indexing at once looks at the slot of the document only, whatever the console does. -/
theorem slot_index (s : Service) (tools : Tools) (uri : String) (text : Text) (other : String) :
    (s.index tools uri text).service.slot other =
      if identityOf uri = other then (s.slot other).indexed tools.parser other text else s.slot other := by
  simp only [index_service, slot, documents_remember, Table.get?_put, Workspace.get?_track]
  split
  · rename_i he
    simp [Slot.indexed, Slot.entry, Workspace.entry, he]
  · rfl

/-- The state after a refresh does not depend on the console: the file is written back first. -/
theorem refresh_service (s : Service) (tools : Tools) (identity : String) :
    (s.refresh tools identity).service =
      match s.workspace.get? identity with
      | some f => { s with
          workspace := s.workspace.put identity (f.freshened (s.documents.get? f.identity) tools.parser) }
      | none => s := by
  have hservice : (s.refresh tools identity).service = { s with
      workspace := (s.workspace.ensureFresh tools identity (storedText s.documents)).workspace } := by
    simp only [refresh]
    split
    · rfl
    · refine Reply.andThen_service_of_kept fun _ _ => ?_
      split
      · rfl
      · exact debug_service _ _ _ _
  rw [hservice]
  cases hf : s.workspace.get? identity with
  | none => simp only [Workspace.ensureFresh, hf]
  | some f => simp only [Workspace.ensureFresh, hf, FileIndex.refresh_index, toOption_storedText]

/-- The index that a refresh reads must stand under its own identity, or the text of another
document would be read. -/
theorem slot_refresh {s : Service} (hk : s.Keyed) (tools : Tools) (identity other : String) :
    (s.refresh tools identity).service.slot other =
      if identity = other then (s.slot other).refreshed tools.parser else s.slot other := by
  rw [refresh_service]
  cases hf : s.workspace.get? identity with
  | none =>
    dsimp only
    split
    · rename_i he
      subst he
      simp [slot, Slot.refreshed, hf]
    · rfl
  | some f =>
    have hid : f.identity = identity := hk identity f hf
    simp only [slot, Table.get?_put, hid]
    split
    · rename_i he
      subst he
      simp [Slot.refreshed, hf]
    · rfl

theorem get?_refresh {s : Service} (hk : s.Keyed) (tools : Tools) (identity : String) :
    (s.refresh tools identity).service.workspace.get? identity =
      ((s.slot identity).refreshed tools.parser).index := by
  have hslot := slot_refresh hk tools identity identity
  rw [if_pos rfl] at hslot
  exact congrArg Slot.index hslot

inductive Step (tools : Tools) (s : Service) : Service → Prop
  | opened (uri : String) (text : Option Text) : Step tools s (s.opened uri text)
  | changed (uri : String) (text : Option Text) : Step tools s (s.changed uri text)
  | evict (uri : String) : Step tools s (s.without (identityOf uri))
  | index (uri : String) (text : Text) : Step tools s (s.index tools uri text).service
  | refresh (identity : String) : Step tools s (s.refresh tools identity).service

abbrev Steps (tools : Tools) : Service → Service → Prop := Relation.ReflTransGen (Step tools)

abbrev Refreshes (tools : Tools) : Service → Service → Prop :=
  Relation.ReflTransGen fun s s' => ∃ identity, s' = (s.refresh tools identity).service

theorem Refreshes.steps {tools : Tools} {s s' : Service} (h : Refreshes tools s s') :
    Steps tools s s' := by
  refine Relation.ReflTransGen.mono ?_ s s' h
  rintro a b ⟨identity, rfl⟩
  exact .refresh identity

/-- The documents of a batch that are reached before a fault stops it, the one that it stops at
included. -/
def taken (s : Service) (tools : Tools) : List (String × Text) → List (String × Text)
  | [] => []
  | d :: rest => d :: match (s.index tools d.1 d.2).answer with
    | .ok _ => (s.index tools d.1 d.2).service.taken tools rest
    | .error _ => []

def indexAll (s : Service) (tools : Tools) (documents : List (String × Text)) : Service :=
  documents.foldl (fun s d => (s.index tools d.1 d.2).service) s

/-- A batch is the documents that it takes in, one after the other. -/
theorem seedFrom_service (s : Service) (tools : Tools) (count : Nat)
    (documents : List (String × Text)) :
    (s.seedFrom tools count documents).service = s.indexAll tools (s.taken tools documents) := by
  induction documents generalizing s count with
  | nil => rfl
  | cons d rest ih =>
    rw [seedFrom, taken, indexAll, List.foldl_cons]
    cases hanswer : (s.index tools d.1 d.2).answer with
    | error fault =>
      rw [Reply.andThen_of_error hanswer]
      rfl
    | ok parsed =>
      rw [Reply.andThen_of_ok hanswer]
      exact ih _ _

/-- What is reached of a batch is reached as well without the documents after it. -/
theorem taken_of_append {before after documents : List (String × Text)}
    (h : s.taken tools documents = before ++ after) : s.taken tools before = before := by
  induction before generalizing s documents with
  | nil => rfl
  | cons d before ih =>
    cases documents with
    | nil => cases h
    | cons e rest =>
      rw [taken, List.cons_append, List.cons.injEq] at h
      obtain ⟨rfl, h⟩ := h
      rw [taken]
      cases hanswer : (s.index tools e.1 e.2).answer with
      | error fault =>
        rw [hanswer] at h
        cases before with
        | nil => rfl
        | cons _ _ => cases h
      | ok parsed =>
        rw [hanswer] at h
        exact congrArg (e :: ·) (ih h)

theorem seed_service (s : Service) (tools : Tools) (documents : List (String × Text)) :
    (s.seed tools documents).service = s.indexAll tools (s.taken tools documents) :=
  seedFrom_service s tools 0 documents

theorem indexAll_steps (s : Service) (tools : Tools) (documents : List (String × Text)) :
    Steps tools s (s.indexAll tools documents) := by
  induction documents generalizing s with
  | nil => exact .refl
  | cons d rest ih => exact .head (.index d.1 d.2) (ih _)

theorem seed_steps (s : Service) (tools : Tools) (documents : List (String × Text)) :
    Steps tools s (s.seed tools documents).service := by
  rw [seed_service]
  exact indexAll_steps s tools _

theorem refreshAll_refreshes (tools : Tools) (identities : List String) (s : Service) :
    Refreshes tools s (s.refreshAll tools identities).service := by
  induction identities generalizing s with
  | nil => exact .refl
  | cons identity rest ih =>
    have hfirst : Refreshes tools s (s.refresh tools identity).service := .single ⟨identity, rfl⟩
    exact Reply.andThen_service (P := Refreshes tools s) hfirst fun _ _ => hfirst.trans (ih _)

/-- A query does no more than one refresh; a file that is not tracked has nothing to refresh. -/
theorem query_service {α : Type} (s : Service) (tools : Tools) (uri : String) (unknown : α)
    (read : FileIndex → α) :
    (s.query tools uri unknown read).service = (s.refresh tools (identityOf uri)).service := by
  simp only [query]
  split
  · exact Reply.andThen_service_of_kept fun _ _ => rfl
  · rename_i hhas
    have hnone := Table.not_has_iff.mp hhas
    simp only [refresh_service, hnone, reply_service]

theorem query_refreshes {α : Type} (s : Service) (tools : Tools) (uri : String) (unknown : α)
    (read : FileIndex → α) : Refreshes tools s (s.query tools uri unknown read).service := by
  rw [query_service]
  exact .single ⟨_, rfl⟩

/-- A query for a declaration refreshes the file it is about, and then all others. -/
theorem findDefinition_refreshes (s : Service) (tools : Tools) (uri : String) (p : Position) :
    Refreshes tools s (s.findDefinition tools uri p).service := by
  have hfirst := s.query_refreshes tools uri none (·.occurrenceAt? p)
  refine Reply.andThen_service (P := Refreshes tools s) hfirst fun occurrence _ => ?_
  cases occurrence with
  | none => exact hfirst
  | some o =>
    rw [Reply.andThen_service_of_kept fun _ _ => debug_service _ _ _ _]
    exact hfirst.trans (refreshAll_refreshes tools _ _)

/-- No operation does anything but moves, whether it ends well or not. -/
theorem perform_steps (s : Service) (tools : Tools) (op : Operation) :
    Steps tools s (s.perform tools op).service := by
  cases op with
  | opened uri text => exact .single (.opened uri text)
  | saved uri text => exact .single (.opened uri text)
  | changed uri text => exact .single (.changed uri text)
  | closed uri =>
    change Steps tools s (s.closed tools uri).service
    rw [closed_service]
    split
    · exact .single (.evict uri)
    · exact .refl
  | evict uri =>
    change Steps tools s (s.evict tools uri).service
    rw [evict_service]
    exact .single (.evict uri)
  | seed documents => exact s.seed_steps tools documents
  | listSymbols uri => exact (s.query_refreshes tools uri [] _).steps
  | findDefinition uri p => exact (s.findDefinition_refreshes tools uri p).steps
  | diagnostics uri => exact (s.query_refreshes tools uri [] _).steps

/-- The inversion of a step, seen from one document: nothing happens to its slot, or one of the
listed moves. -/
theorem Step.slot {tools : Tools} {s s' : Service} (hs : Step tools s s') (hk : s.Keyed)
    (identity : String) : s'.slot identity = s.slot identity ∨
      Slot.Move tools.parser identity (s.slot identity) (s'.slot identity) := by
  -- A step names one document, and all others keep their slots.
  cases hs with
  | opened uri text =>
    rw [slot_opened]
    split
    · exact .inr (.opened text)
    · exact .inl rfl
  | changed uri text =>
    rw [slot_changed]
    split
    · exact .inr (.changed text)
    · exact .inl rfl
  | evict uri =>
    rw [slot_without]
    split
    · exact .inr .forgotten
    · exact .inl rfl
  | index uri text =>
    rw [slot_index]
    split
    · exact .inr (.indexed text)
    · exact .inl rfl
  | refresh other =>
    rw [slot_refresh hk]
    split
    · exact .inr .refreshed
    · exact .inl rfl

theorem Step.options {tools : Tools} {s s' : Service} (h : Step tools s s') :
    s'.evictOnClose = s.evictOnClose ∧ s'.verbose = s.verbose := by
  have hremember : ∀ uri given, (s.remember uri given).evictOnClose = s.evictOnClose ∧
      (s.remember uri given).verbose = s.verbose := by
    intro uri given
    cases given <;> exact ⟨rfl, rfl⟩
  cases h with
  | opened uri given => exact hremember uri given
  | changed uri given =>
    simp only [Service.changed]
    split
    · exact hremember _ given
    · exact ⟨rfl, rfl⟩
  | evict uri => exact ⟨rfl, rfl⟩
  | index uri text =>
    rw [index_service]
    exact ⟨rfl, rfl⟩
  | refresh identity =>
    rw [refresh_service]
    split <;> exact ⟨rfl, rfl⟩

/-- A service keeps the options that it was made with. -/
theorem Steps.options {tools : Tools} {s s' : Service} (h : Steps tools s s') :
    s'.evictOnClose = s.evictOnClose ∧ s'.verbose = s.verbose := by
  induction h with
  | refl => exact ⟨rfl, rfl⟩
  | tail _ hstep ih => exact ⟨hstep.options.1.trans ih.1, hstep.options.2.trans ih.2⟩

theorem run_steps (s : Service) (tools : Tools) (ops : List Operation) :
    Steps tools s (s.run tools ops) := by
  induction ops generalizing s with
  | nil => exact .refl
  | cons op rest ih => exact (s.perform_steps tools op).trans (ih _)

/-- A property of slots that no move breaks is kept by any number of moves. -/
theorem Steps.slots {tools : Tools} {Q : String → Slot → Prop}
    (hmove : ∀ i c c', c.Keyed i → Q i c → Slot.Move tools.parser i c c' → Q i c')
    {s s' : Service} (hs : Steps tools s s') (hk : s.Keyed) (h : ∀ i, Q i (s.slot i)) :
    s'.Keyed ∧ ∀ i, Q i (s'.slot i) := by
  induction hs with
  | refl => exact ⟨hk, h⟩
  | tail _ hstep ih =>
    obtain ⟨hk, h⟩ := ih
    refine ⟨?_, ?_⟩ <;> intro i <;> rcases hstep.slot hk i with he | hm
    · rw [he]
      exact hk i
    · exact hm.keyed (hk i)
    · rw [he]
      exact h i
    · exact hmove i _ _ (hk i) (h i) hm

theorem new_keyed (evictOnClose verbose : Bool) : (new evictOnClose verbose).Keyed :=
  fun _ _ h => nomatch h

theorem Steps.keyed {tools : Tools} {s s' : Service} (hs : Steps tools s s') (hk : s.Keyed) :
    s'.Keyed :=
  (Steps.slots (Q := fun _ _ => True) (fun _ _ _ _ _ _ => trivial) hs hk (fun _ => trivial)).1

/-- However often a file is refreshed, it is as after one refresh. -/
theorem Refreshes.slot {tools : Tools} {s s' : Service} (h : Refreshes tools s s') (hk : s.Keyed)
    (identity : String) : s'.slot identity = s.slot identity ∨
      s'.slot identity = (s.slot identity).refreshed tools.parser := by
  induction h with
  | refl => exact .inl rfl
  | tail hs hstep ih =>
    obtain ⟨other, rfl⟩ := hstep
    rw [slot_refresh (Steps.keyed (Refreshes.steps hs) hk)]
    rcases ih with he | he <;> rw [he] <;> split
    · exact .inr rfl
    · exact .inl rfl
    · exact .inr (Slot.refreshed_refreshed _ _)
    · exact .inr rfl

end Service

end LuaSymbols
