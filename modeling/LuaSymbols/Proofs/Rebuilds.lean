import LuaSymbols.Proofs.Views

namespace LuaSymbols

theorem FileIndex.walkCount_reindexed {f : FileIndex} (h : f.dirty = true) (text : Text)
    (parser : Parser) : (f.reindexed text parser).walkCount =
      f.walkCount + if (f.reindexed text parser).dirty then 0 else 1 := by
  rcases reindexed_cases f text parser with ⟨failure, _, he⟩ | ⟨_, found, _, _, he⟩ | he <;> rw [he]
  · simp [fail, h]
  · simp [accept]
  · simp [h]

namespace Slot

variable {c c' c'' : Slot} {parser : Parser}

def stale (c : Slot) : Bool := c.index.all (·.dirty)

def walks (c : Slot) : Nat := c.index.elim 0 (·.walkCount)

theorem entry_dirty (h : c.stale = true) (identity : String) : (c.entry identity).dirty = true := by
  unfold entry
  cases hi : c.index with
  | none => rfl
  | some f => simpa [stale, hi] using h

theorem entry_walkCount (c : Slot) (identity : String) : (c.entry identity).walkCount = c.walks := by
  unfold entry walks
  cases c.index <;> rfl

/-- The index is left alone or, not being clean, worked on, and its turn from dirty to clean is counted. -/
def Advances (c c' : Slot) : Prop :=
  c'.index = c.index ∨ c.stale = true ∧ c'.walks = c.walks + if c'.stale then 0 else 1

/-- A clean index is left alone, so a second move cannot count it again. -/
theorem Advances.trans (h : c.Advances c') (h' : c'.Advances c'') : c.Advances c'' := by
  rcases h with he | ⟨hs, hw⟩
  · have hwalks : c'.walks = c.walks := by rw [walks, he, walks]
    rcases h' with he' | ⟨hs', hw'⟩
    · exact .inl (he'.trans he)
    · rw [stale, he] at hs'
      exact .inr ⟨hs', by rw [hw', hwalks]⟩
  · rcases h' with he' | ⟨hs', hw'⟩
    · have hwalks : c''.walks = c'.walks := by rw [walks, he', walks]
      have hstale : c''.stale = c'.stale := by rw [stale, he', stale]
      exact .inr ⟨hs, by rw [hwalks, hw, hstale]⟩
    · rw [hs', if_pos rfl, Nat.add_zero] at hw
      exact .inr ⟨hs, by rw [hw', hw]⟩

theorem advances_indexed (h : c.stale = true) (identity : String) (text : Text) :
    c.Advances (c.indexed parser identity text) := by
  refine .inr ⟨h, ?_⟩
  have hcount := FileIndex.walkCount_reindexed (entry_dirty h identity) text parser
  rw [entry_walkCount] at hcount
  exact hcount

theorem advances_refreshed (c : Slot) (parser : Parser) : c.Advances (c.refreshed parser) := by
  -- The identity matters only for a slot without an index, which a refresh leaves alone.
  rcases c.refreshed_cases parser "" with he | ⟨f, text, hf, hd, _, he⟩ <;> rw [he]
  · exact .inl rfl
  · exact advances_indexed (by simpa [stale, hf] using hd) "" text

theorem Advances.walks_eq (h : c.Advances c') :
    c'.walks = c.walks + if c.stale && !c'.stale then 1 else 0 := by
  rcases h with he | ⟨hs, hw⟩
  · have hstale : c'.stale = c.stale := by rw [stale, he, stale]
    simp [hstale, walks, he]
  · rw [hw, hs]
    cases c'.stale <;> rfl

theorem Advances.clean (h : c.Advances c') (hc : c.stale = false) : c'.index = c.index := by
  rcases h with he | ⟨hs, _⟩
  · exact he
  · rw [hc] at hs
    cases hs

/-- How often the index has turned clean, from how often it had done so before. An index starts out
dirty, and its count is lost with it. -/
def recount (count : Nat) (c c' : Slot) : Nat :=
  if c'.index.isNone then 0 else if c.stale && !c'.stale then count + 1 else count

def Counted (c c' : Slot) : Prop := c'.walks = recount c.walks c c'

theorem Advances.counted (h : c.Advances c') : c.Counted c' := by
  unfold Counted recount
  cases hi : c'.index with
  | none => simp [walks, hi]
  | some f =>
    rw [h.walks_eq]
    cases c.stale && !c'.stale <;> rfl

theorem counted_of_dirty {f : FileIndex} (hf : c'.index = some f) (hd : f.dirty = true)
    (hw : f.walkCount = c.walks) : c.Counted c' := by
  simp [Counted, recount, walks, stale, hf, hd, hw]

theorem counted_opened (c : Slot) (identity : String) (text : Option Text) :
    c.Counted (c.opened identity text) :=
  counted_of_dirty rfl rfl (entry_walkCount c identity)

theorem counted_changed (c : Slot) (text : Option Text) : c.Counted (c.changed text) := by
  unfold Slot.changed
  split
  · rename_i f hf
    exact counted_of_dirty rfl rfl (by simp [FileIndex.markDirty, walks, hf])
  · exact Advances.counted (.inl rfl)

theorem counted_empty (c : Slot) : c.Counted .empty := rfl

end Slot

theorem filter_cons_eq_append {α : Type} (p : α → Bool) (a : α) (l : List α) :
    (a :: l).filter p = [a].filter p ++ l.filter p :=
  List.filter_append [a] l

theorem forall_split_nil {α : Type} {P : List α → α → Prop} :
    (∀ before a after, [] = before ++ a :: after → P before a) ↔ True := by
  simp

theorem forall_split_cons {α : Type} {P : List α → α → Prop} {a : α} {l : List α} :
    (∀ before b after, a :: l = before ++ b :: after → P before b) ↔
      P [] a ∧ ∀ before b after, l = before ++ b :: after → P (a :: before) b := by
  constructor
  · intro h
    exact ⟨h [] a l rfl, fun before b after hl => h (a :: before) b after (by rw [hl]; rfl)⟩
  · rintro ⟨hfirst, hrest⟩ before b after hl
    cases before with
    | nil =>
      cases hl
      exact hfirst
    | cons a' before =>
      cases hl
      exact hrest before b after rfl

/-- No text of a batch meets a clean index. -/
def Operation.Sparing (tools : Tools) (s : Service) : Operation → Prop
  | .seed documents => ∀ before d after, documents = before ++ d :: after →
      ∀ f, (s.seed tools before).service.workspace.get? (identityOf d.1) = some f → f.dirty = true
  | _ => True

namespace Service

variable {tools : Tools} {s s' : Service}

theorem stale_iff {identity : String} : (s.slot identity).stale = true ↔
    ∀ f, s.workspace.get? identity = some f → f.dirty = true := by
  simp only [Slot.stale, slot]
  cases s.workspace.get? identity <;> simp

def dirtyAt (s : Service) (identity : String) : Bool := (s.slot identity).index.any (·.dirty)

/-- One text is asked for, and only for a dirty file. -/
theorem refresh_asked (s : Service) (tools : Tools) (identity : String) :
    (s.refresh tools identity).asked = [identity].filter s.dirtyAt := by
  have hasked : (s.refresh tools identity).asked =
      (s.workspace.ensureFresh tools identity (storedText s.documents)).asked := by
    simp only [refresh]
    split
    · rfl
    · refine Reply.andThen_asked_of_kept fun _ _ => ?_
      split
      · rfl
      · exact debug_asked _ _ _ _
  rw [hasked]
  unfold Workspace.ensureFresh
  cases hf : s.workspace.get? identity with
  | none => simp [dirtyAt, slot, hf]
  | some f => cases hd : f.dirty <;> simp [FileIndex.refresh_asked, dirtyAt, slot, hf, hd]

theorem dirtyAt_refresh (hk : s.Keyed) {identity other : String} (h : other ≠ identity) :
    (s.refresh tools identity).service.dirtyAt other = s.dirtyAt other := by
  rw [dirtyAt, slot_refresh hk, if_neg h.symm, dirtyAt]

/-- To refresh some files is to ask for the dirty ones of them, as far as no fault stops the work. -/
theorem refreshAll_asked (hk : s.Keyed) {identities : List String} (hn : identities.Nodup) :
    (s.refreshAll tools identities).asked.Sublist (identities.filter s.dirtyAt) := by
  induction identities generalizing s with
  | nil => exact .slnil
  | cons identity rest ih =>
    obtain ⟨hnew, hrest⟩ := List.nodup_cons.mp hn
    rw [filter_cons_eq_append, ← refresh_asked s tools identity, refreshAll]
    cases hanswer : (s.refresh tools identity).answer with
    | error fault =>
      rw [Reply.andThen_of_error hanswer]
      exact List.sublist_append_left _ _
    | ok _ =>
      rw [Reply.andThen_of_ok hanswer]
      have hk' : (s.refresh tools identity).service.Keyed :=
        Steps.keyed (.single (.refresh identity)) hk
      have hothers := ih hk' hrest
      -- The files still to come are as dirty as they were: none of them is the one just refreshed.
      have hsame : rest.filter (s.refresh tools identity).service.dirtyAt =
          rest.filter s.dirtyAt := by
        apply List.filter_congr
        intro other hother
        exact dirtyAt_refresh hk fun he => hnew (he ▸ hother)
      rw [hsame] at hothers
      exact List.Sublist.append (.refl _) hothers

theorem query_asked {α : Type} (s : Service) (tools : Tools) (uri : String) (unknown : α)
    (read : FileIndex → α) :
    (s.query tools uri unknown read).asked = [identityOf uri].filter s.dirtyAt := by
  simp only [query]
  split
  · rw [← refresh_asked s tools]
    exact Reply.andThen_asked_of_kept fun _ _ => rfl
  · rename_i hhas
    simp [dirtyAt, slot, Table.not_has_iff.mp hhas, reply]

/-- The file itself comes first and is not asked for again among the others. If the pass breaks off,
fewer files are asked for, never others. -/
theorem findDefinition_asked (ho : s.Orderly) (uri : String) (p : Position) :
    (s.findDefinition tools uri p).asked.Sublist
      ((identityOf uri :: delist s.workspace.keys (identityOf uri)).filter s.dirtyAt) := by
  let identity := identityOf uri
  let first := (s.refresh tools identity).service
  have hasked := s.query_asked tools uri none fun f => f.occurrenceAt? p
  have hservice := s.query_service tools uri none fun f => f.occurrenceAt? p
  -- The first refresh changes no other file, so what is dirty among the others is known before it.
  have hothers : (first.refreshAll tools (delist first.workspace.keys identity)).asked.Sublist
      ((delist s.workspace.keys identity).filter s.dirtyAt) := by
    have hk : first.Keyed := Steps.keyed (.single (.refresh identity)) ho.keyed
    have hn : (delist first.workspace.keys identity).Nodup := by
      rw [keys_refresh]
      exact ho.nodup.filter _
    have hsame : (delist first.workspace.keys identity).filter first.dirtyAt =
        (delist s.workspace.keys identity).filter s.dirtyAt := by
      rw [keys_refresh]
      apply List.filter_congr
      intro other hother
      exact dirtyAt_refresh ho.keyed (by simpa using (List.mem_filter.mp hother).2)
    exact hsame ▸ refreshAll_asked hk hn
  rw [filter_cons_eq_append, findDefinition, ← hasked]
  cases hanswer : (s.query tools uri none fun f => f.occurrenceAt? p).answer with
  | error fault =>
    rw [Reply.andThen_of_error hanswer]
    exact List.sublist_append_left _ _
  | ok occurrence =>
    rw [Reply.andThen_of_ok hanswer, hservice]
    refine List.Sublist.append (.refl _) ?_
    cases occurrence with
    | none => exact List.nil_sublist _
    | some o =>
      rw [Reply.andThen_asked_of_kept fun _ _ => debug_asked _ _ _ _]
      exact hothers

theorem Refreshes.documents (h : Refreshes tools s s') : s'.documents = s.documents := by
  induction h with
  | refl => rfl
  | tail _ hstep ih =>
    obtain ⟨identity, rfl⟩ := hstep
    rw [← ih, refresh_service]
    split <;> rfl

theorem Refreshes.advances (h : Refreshes tools s s') (hk : s.Keyed) (identity : String) :
    (s.slot identity).Advances (s'.slot identity) := by
  rcases h.slot hk identity with he | he <;> rw [he]
  · exact .inl rfl
  · exact Slot.advances_refreshed _ tools.parser

/-- What a query may do to the files of a service. -/
structure Frugal (s : Service) (r : Reply Answer) : Prop where
  once : r.asked.Nodup
  dirty : ∀ identity ∈ r.asked, ∃ f, s.workspace.get? identity = some f ∧ f.dirty = true
  /-- One walk more for an index that turns clean, and none for any other. -/
  walks : ∀ identity f f', s.workspace.get? identity = some f →
    r.service.workspace.get? identity = some f' →
      f'.walkCount = f.walkCount + if f.dirty && !f'.dirty then 1 else 0
  clean : ∀ identity f, s.workspace.get? identity = some f → f.dirty = false →
    r.service.workspace.get? identity = some f
  keys : r.service.workspace.keys = s.workspace.keys
  documents : r.service.documents = s.documents

theorem perform_asked (ho : s.Orderly) (tools : Tools) {op : Operation} (hq : op.isQuery = true) :
    ∃ files : List String, files.Nodup ∧
      (s.perform tools op).asked.Sublist (files.filter s.dirtyAt) := by
  cases op with
  | listSymbols uri =>
    exact ⟨[identityOf uri], by simp, by rw [← s.query_asked tools uri [] (·.symbols)]; exact .refl _⟩
  | diagnostics uri =>
    exact ⟨[identityOf uri], by simp, by rw [← s.query_asked tools uri [] problemsOf]; exact .refl _⟩
  | findDefinition uri p =>
    have hnew : identityOf uri ∉ delist s.workspace.keys (identityOf uri) := by simp [delist]
    exact ⟨_, List.nodup_cons.mpr ⟨hnew, ho.nodup.filter _⟩, findDefinition_asked ho uri p⟩
  | _ => cases hq

/-- A query asks for the texts of dirty files at most once and walks those that turn clean just
once. -/
theorem perform_frugal (ho : s.Orderly) {op : Operation} (hq : op.isQuery = true) :
    s.Frugal (s.perform tools op) := by
  have hr := perform_query_refreshes hq s tools
  obtain ⟨files, hfiles, hasked⟩ := perform_asked ho tools hq
  refine ⟨(hfiles.filter _).sublist hasked, ?_, ?_, ?_, hr.keys, hr.documents⟩
  · intro identity hm
    exact (Option.any_eq_true _ _).mp (List.mem_filter.mp (hasked.subset hm)).2
  · intro identity f f' hf hf'
    have hwalks := (hr.advances ho.keyed identity).walks_eq
    simpa [Slot.walks, Slot.stale, slot, hf, hf'] using hwalks
  · intro identity f hf hclean
    have hsame := (hr.advances ho.keyed identity).clean (by simp [Slot.stale, slot, hf, hclean])
    exact hsame.trans hf

theorem seed_cons_of_ok {uri : String} {text : Text} {parsed : Bool}
    (h : (s.index tools uri text).answer = .ok parsed) (rest : List (String × Text)) :
    (s.seed tools ((uri, text) :: rest)).service =
      ((s.index tools uri text).service.seed tools rest).service := by
  rw [seed_service, taken, h, seed_service]
  rfl

/-- A batch that spares clean indexes moves dirty ones only, also if it is cut short. -/
theorem seed_advances {documents : List (String × Text)}
    (h : (Operation.seed documents).Sparing tools s) (identity : String) :
    (s.slot identity).Advances ((s.seed tools documents).service.slot identity) := by
  induction documents generalizing s with
  | nil => exact .inl rfl
  | cons d rest ih =>
    obtain ⟨uri, text⟩ := d
    obtain ⟨hnow, hlater⟩ := forall_split_cons.mp h
    have hfirst : (s.slot identity).Advances ((s.index tools uri text).service.slot identity) := by
      rw [slot_index]
      split
      · rename_i he
        subst he
        exact Slot.advances_indexed (stale_iff.mpr hnow) _ text
      · exact .inl rfl
    cases hanswer : (s.index tools uri text).answer with
    -- The batch ends here, and the rest of it is not taken in.
    | error fault =>
      have hstop : (s.seed tools ((uri, text) :: rest)).service =
          (s.index tools uri text).service := by
        rw [seed_service, taken, hanswer]
        rfl
      rw [hstop]
      exact hfirst
    | ok parsed =>
      rw [seed_cons_of_ok hanswer]
      refine hfirst.trans (ih ?_)
      intro before d after hrest f hf
      rw [← seed_cons_of_ok hanswer] at hf
      exact hlater before d after hrest f hf

/-- One operation: the count of a file goes up exactly if the operation turns it clean. -/
theorem perform_counted (hk : s.Keyed) {op : Operation} (h : op.Sparing tools s)
    (identity : String) :
    (s.slot identity).Counted ((s.perform tools op).service.slot identity) := by
  have hsame : (s.slot identity).Counted (s.slot identity) := Slot.Advances.counted (.inl rfl)
  have hopened : ∀ uri text, (s.slot identity).Counted ((s.opened uri text).slot identity) := by
    intro uri text
    rw [slot_opened]
    split
    · exact Slot.counted_opened _ identity text
    · exact hsame
  have hwithout : ∀ other, (s.slot identity).Counted ((s.without other).slot identity) := by
    intro other
    rw [slot_without]
    split
    · exact Slot.counted_empty _
    · exact hsame
  cases op with
  | opened uri text => exact hopened uri text
  | saved uri text => exact hopened uri text
  | changed uri text =>
    change (s.slot identity).Counted ((s.changed uri text).slot identity)
    rw [slot_changed]
    split
    · exact Slot.counted_changed _ text
    · exact hsame
  | closed uri =>
    change (s.slot identity).Counted ((s.closed tools uri).service.slot identity)
    rw [closed_service]
    split
    · exact hwithout _
    · exact hsame
  | evict uri =>
    change (s.slot identity).Counted ((s.evict tools uri).service.slot identity)
    rw [evict_service]
    exact hwithout _
  | seed documents => exact (seed_advances h identity).counted
  | listSymbols uri => exact ((s.query_refreshes tools uri [] _).advances hk identity).counted
  | findDefinition uri p => exact ((s.findDefinition_refreshes tools uri p).advances hk identity).counted
  | diagnostics uri => exact ((s.query_refreshes tools uri [] _).advances hk identity).counted

/-- How often the index of a document has turned clean since it was made, from one operation of a history
to the next, and from how often it had done so before. -/
def cleanings (s : Service) (tools : Tools) (identity : String) (count : Nat) :
    List Operation → Nat
  | [] => count
  | op :: rest =>
    let next := (s.perform tools op).service
    next.cleanings tools identity (Slot.recount count (s.slot identity) (next.slot identity)) rest

/-- By induction over the operations. The sparing condition is asked at the state that each of them
meets. -/
theorem run_walks (hk : s.Keyed) {ops : List Operation}
    (h : ∀ before op after, ops = before ++ op :: after → op.Sparing tools (s.run tools before))
    (identity : String) : ((s.run tools ops).slot identity).walks =
      s.cleanings tools identity (s.slot identity).walks ops := by
  induction ops generalizing s with
  | nil => rfl
  | cons op rest ih =>
    obtain ⟨hnow, hlater⟩ := forall_split_cons.mp h
    have hk' := (s.perform_steps tools op).keyed hk
    have hcounted : _ = _ := perform_counted hk hnow identity
    simp only [run, cleanings]
    rw [ih hk' hlater, hcounted]

/-- A query asks only for the texts of dirty files, for each of them once, and changes no more than their
indexes. Along a history in which no batch names a clean file, an index has been walked as often as it
has turned clean. -/
theorem queries_walk_once (tools : Tools) (evictOnClose verbose : Bool) (ops : List Operation) :
    let s := (new evictOnClose verbose).run tools ops
    (∀ op : Operation, op.isQuery = true → s.Frugal (s.perform tools op)) ∧
    ((∀ before op after, ops = before ++ op :: after →
        op.Sparing tools ((new evictOnClose verbose).run tools before)) →
      ∀ identity f, s.workspace.get? identity = some f →
        f.walkCount = (new evictOnClose verbose).cleanings tools identity 0 ops) := by
  intro s
  refine ⟨fun op hq => perform_frugal (run_orderly tools evictOnClose verbose ops) hq, ?_⟩
  intro hsparing identity f hf
  have hwalks := run_walks (new_keyed evictOnClose verbose) hsparing identity
  have hcount : ((new evictOnClose verbose).run tools ops).slot identity =
      ⟨s.documents.get? identity, some f⟩ := by rw [slot, ← hf]
  rw [hcount] at hwalks
  exact hwalks

def revisited : List Operation :=
  [.opened "C:\\a" (some (Text.ofString "f")), .opened "b" (some (Text.ofString "f(")),
    .listSymbols "c:/a", .seed [("c", Text.ofString "f")], .changed "c:/a" none, .evict "c",
    .seed [("c", Text.ofString "f")]]

/-- One file is reported as changed after it was indexed, the text of the second never parsed, and the
third is forgotten and indexed again. -/
theorem queries_walk_once_revisited :
    (Operation.findDefinition "C:/a" .origin).isQuery = true ∧
    (∀ before op after, revisited = before ++ op :: after →
      op.Sparing (.recursion "f") ((new false false).run (.recursion "f") before)) ∧
    let s := (new false false).run (.recursion "f") revisited
    let r := s.perform (.recursion "f") (.findDefinition "C:/a" .origin)
    s.Frugal r ∧ r.asked = ["c:/a", "b"] ∧
    ∃ f, s.workspace.get? "c" = some f ∧ f.walkCount = 1 ∧
      f.walkCount = (new false false).cleanings (.recursion "f") "c" 0 revisited := by
  have hsparing : ∀ before op after, revisited = before ++ op :: after →
      op.Sparing (.recursion "f") ((new false false).run (.recursion "f") before) := by
    simp only [revisited, forall_split_cons, forall_split_nil, Operation.Sparing, and_true, true_and]
    exact ⟨(fun _ h => nomatch h), (fun _ h => nomatch h)⟩
  obtain ⟨hfrugal, hcount⟩ := queries_walk_once (.recursion "f") false false revisited
  have hindex : (((new false false).run (.recursion "f") revisited).workspace.get? "c").map
      FileIndex.walkCount = some 1 := by decide +kernel
  obtain ⟨f, hf, hone⟩ := Option.map_eq_some_iff.mp hindex
  refine ⟨rfl, hsparing, hfrugal _ rfl, by decide +kernel, f, hf, hone, ?_⟩
  exact hcount hsparing "c" f hf

end Service

end LuaSymbols
