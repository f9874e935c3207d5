import LuaSymbols.Proofs.Answers

namespace LuaSymbols

def enlist (tracked : List String) (identity : String) : List String :=
  if identity ∈ tracked then tracked else tracked ++ [identity]

def delist (tracked : List String) (identity : String) : List String :=
  tracked.filter fun other => other != identity

def Operation.tracking (evictOnClose : Bool) (tracked : List String) : Operation → List String
  | .opened uri _ | .saved uri _ => enlist tracked (identityOf uri)
  | .closed uri => if evictOnClose then delist tracked (identityOf uri) else tracked
  | .evict uri => delist tracked (identityOf uri)
  | .seed documents => documents.foldl (fun tracked d => enlist tracked (identityOf d.1)) tracked
  | .changed _ _ | .listSymbols _ | .findDefinition _ _ | .diagnostics _ => tracked

/-- The tracked files after a history, in the order in which they were first tracked since they were
last forgotten. -/
def trackedBy (evictOnClose : Bool) (ops : List Operation) : List String :=
  ops.foldl (Operation.tracking evictOnClose) []

/-- The part of an operation that is carried out: of a batch that is stopped that is what was reached. -/
def Operation.reached (s : Service) (tools : Tools) : Operation → Operation
  | .seed documents => .seed (s.taken tools documents)
  | op => op

def Service.carriedOut (s : Service) (tools : Tools) : List Operation → List Operation
  | [] => []
  | op :: rest => op.reached s tools :: (s.perform tools op).service.carriedOut tools rest

theorem nodup_enlist {tracked : List String} (h : tracked.Nodup) (identity : String) :
    (enlist tracked identity).Nodup := by
  unfold enlist
  split
  · exact h
  · rename_i hnew
    refine List.nodup_append.mpr ⟨h, by simp, ?_⟩
    intro a ha b hb hab
    exact hnew (List.mem_singleton.mp hb ▸ hab ▸ ha)

theorem Workspace.keys_track (w : Workspace) (identity : String) :
    (w.track identity).keys = enlist w.keys identity := by
  unfold Workspace.track enlist
  split
  · rename_i hhas
    rw [if_pos (Table.mem_keys_iff.mpr hhas)]
  · exact Table.keys_put w identity _

theorem Workspace.keys_markDirty (w : Workspace) (identity : String) :
    (w.markDirty identity).keys = w.keys := by
  unfold Workspace.markDirty
  split
  · rename_i f hf
    exact Table.keys_put_of_get? hf _
  · rfl

namespace Service

variable {tools : Tools} {s s' : Service}

theorem keys_opened (s : Service) (uri : String) (text : Option Text) :
    (s.opened uri text).workspace.keys = enlist s.workspace.keys (identityOf uri) := by
  simp only [opened, workspace_remember, Workspace.keys_markDirty, Workspace.keys_track]

theorem keys_changed (s : Service) (uri : String) (text : Option Text) :
    (s.changed uri text).workspace.keys = s.workspace.keys := by
  simp only [changed]
  split
  · simp only [workspace_remember, Workspace.keys_markDirty]
  · rfl

theorem keys_without (s : Service) (identity : String) :
    (s.without identity).workspace.keys = delist s.workspace.keys identity :=
  Table.keys_remove _ _

theorem keys_index (s : Service) (tools : Tools) (uri : String) (text : Text) :
    (s.index tools uri text).service.workspace.keys = enlist s.workspace.keys (identityOf uri) := by
  rw [index_service, ← Workspace.keys_track]
  exact Table.keys_put_of_get? (Workspace.get?_track_self s.workspace (identityOf uri)) _

theorem keys_refresh (s : Service) (tools : Tools) (identity : String) :
    (s.refresh tools identity).service.workspace.keys = s.workspace.keys := by
  rw [refresh_service]
  split
  · rename_i f hf
    exact Table.keys_put_of_get? hf _
  · rfl

theorem Refreshes.keys (h : Refreshes tools s s') : s'.workspace.keys = s.workspace.keys := by
  induction h with
  | refl => rfl
  | tail _ hstep ih =>
    obtain ⟨identity, rfl⟩ := hstep
    rw [keys_refresh, ih]

theorem keys_indexAll (s : Service) (tools : Tools) (documents : List (String × Text)) :
    (s.indexAll tools documents).workspace.keys =
      documents.foldl (fun tracked d => enlist tracked (identityOf d.1)) s.workspace.keys := by
  induction documents generalizing s with
  | nil => rfl
  | cons d rest ih =>
    rw [List.foldl_cons, ← keys_index s tools d.1 d.2]
    exact ih _

/-- What an operation does to the list of tracked files can be told without the indexes, up to where
the operation came. -/
theorem keys_perform (s : Service) (tools : Tools) (op : Operation) :
    (s.perform tools op).service.workspace.keys =
      (op.reached s tools).tracking s.evictOnClose s.workspace.keys := by
  cases op with
  | opened uri text => exact keys_opened s uri text
  | saved uri text => exact keys_opened s uri text
  | changed uri text => exact keys_changed s uri text
  | closed uri =>
    change (s.closed tools uri).service.workspace.keys = _
    simp only [closed_service, Operation.reached, Operation.tracking]
    split
    · exact keys_without s _
    · rfl
  | evict uri =>
    change (s.evict tools uri).service.workspace.keys = _
    rw [evict_service]
    exact keys_without s _
  | seed documents =>
    change (s.seed tools documents).service.workspace.keys = _
    rw [seed_service]
    exact keys_indexAll s tools _
  | listSymbols uri => exact (s.query_refreshes tools uri [] _).keys
  | findDefinition uri p => exact (s.findDefinition_refreshes tools uri p).keys
  | diagnostics uri => exact (s.query_refreshes tools uri [] _).keys

/-- By induction over the operations; the setting about closed documents stays. -/
theorem keys_run (s : Service) (tools : Tools) (ops : List Operation) :
    (s.run tools ops).workspace.keys =
      (s.carriedOut tools ops).foldl (Operation.tracking s.evictOnClose) s.workspace.keys := by
  induction ops generalizing s with
  | nil => rfl
  | cons op rest ih =>
    have hsame := (s.perform_steps tools op).options.1
    rw [carriedOut, List.foldl_cons, ← keys_perform, ← hsame]
    exact ih _

/-- The files of a service stand in the order that the history tells. -/
theorem keys_eq_trackedBy (tools : Tools) (evictOnClose verbose : Bool) (ops : List Operation) :
    ((new evictOnClose verbose).run tools ops).workspace.keys =
      trackedBy evictOnClose ((new evictOnClose verbose).carriedOut tools ops) :=
  keys_run (new evictOnClose verbose) tools ops

/-- All that a move can do to the order. -/
theorem Step.keys_cases (hs : Step tools s s') :
    s'.workspace.keys = s.workspace.keys ∨
    (∃ uri, s'.workspace.keys = enlist s.workspace.keys (identityOf uri)) ∨
    ∃ uri, s'.workspace.keys = delist s.workspace.keys (identityOf uri) := by
  cases hs with
  | opened uri text => exact .inr (.inl ⟨uri, keys_opened s uri text⟩)
  | changed uri text => exact .inl (keys_changed s uri text)
  | evict uri => exact .inr (.inr ⟨uri, keys_without s _⟩)
  | index uri text => exact .inr (.inl ⟨uri, keys_index s tools uri text⟩)
  | refresh identity => exact .inl (keys_refresh s tools identity)

theorem Step.nodup_keys (hs : Step tools s s') (h : s.workspace.keys.Nodup) :
    s'.workspace.keys.Nodup := by
  rcases hs.keys_cases with he | ⟨uri, he⟩ | ⟨uri, he⟩ <;> rw [he]
  · exact h
  · exact nodup_enlist h _
  · exact h.filter _

theorem Steps.nodup_keys (hs : Steps tools s s') (h : s.workspace.keys.Nodup) :
    s'.workspace.keys.Nodup := by
  induction hs with
  | refl => exact h
  | tail _ hstep ih => exact hstep.nodup_keys ih

end Service

end LuaSymbols
