import LuaSymbols.Proofs.Slots

namespace LuaSymbols

structure Contents where
  occurrences : List Occurrence
  symbols : List Symbol
  byName : Table Symbol
  lastError : Option ParseFailure

namespace Contents

def empty : Contents := ⟨[], [], [], none⟩

def occurrenceAt? (c : Contents) (p : Position) : Option Occurrence :=
  c.occurrences.find? fun o => o.range.contains p

def problems (c : Contents) : List Diagnostic :=
  match c.lastError with
  | none => []
  | some failure => [⟨failure.message, Range.point (failure.position.getD Position.origin)⟩]

/-- Reads a text: what a walk finds replaces everything, and a failure to parse is noted beside what
was known before. -/
def reread (c : Contents) (parser : Parser) (identity : String) (text : Text) : Contents :=
  match parser text with
  | .error (.failure failure) => { c with lastError := some failure }
  | .error (.fault _) => c
  | .ok tree =>
    match tree.walk identity with
    | .error _ => c
    | .ok found =>
      ⟨found.occurrences.toList, found.symbols.toList, FileIndex.tabulate found.symbols.toList, none⟩

variable {c : Contents} {parser : Parser} {identity : String} {text : Text}

theorem reread_of_failure {failure : ParseFailure} (h : parser text = .error (.failure failure)) :
    c.reread parser identity text = { c with lastError := some failure } := by
  simp only [reread, h]

theorem reread_of_found {tree : Node} {found : Findings} (h : parser text = .ok tree)
    (hw : tree.walk identity = .ok found) :
    c.reread parser identity text = ⟨found.occurrences.toList, found.symbols.toList,
      FileIndex.tabulate found.symbols.toList, none⟩ := by
  simp only [reread, h, hw]

/-- Reading the same text twice is reading it once: a failure only overwrites itself. -/
theorem reread_reread : (c.reread parser identity text).reread parser identity text =
    c.reread parser identity text := by
  cases hp : parser text with
  | error why =>
    cases why with
    | failure failure => rw [reread_of_failure hp, reread_of_failure hp]
    | fault fault => simp only [reread, hp]
  | ok tree =>
    cases hw : tree.walk identity with
    | error fault => simp only [reread, hp, hw]
    | ok found => rw [reread_of_found hp hw, reread_of_found hp hw]

end Contents

def FileIndex.contents (f : FileIndex) : Contents := ⟨f.occurrences, f.symbols, f.byName, f.lastError⟩

/-- What queries can see of an attempt depends on what they could see before, and not on
the cache. -/
theorem FileIndex.contents_reindexed (f : FileIndex) (text : Text) (parser : Parser) :
    (f.reindexed text parser).contents = f.contents.reread parser f.identity text := by
  cases hp : parser text with
  | error why =>
    cases why with
    | failure failure =>
      rw [reindexed_of_failure hp, Contents.reread_of_failure hp]
      rfl
    | fault fault => simp only [reindexed, rebuild, Contents.reread, hp]
  | ok tree =>
    cases hw : tree.walk f.identity with
    | error fault => simp only [reindexed, rebuild, Contents.reread, hp, hw]
    | ok found =>
      rw [reindexed_of_found hp hw, Contents.reread_of_found hp hw]
      rfl

namespace Slot

/-- If the index is clean then there is a text, and reading it again changes nothing. -/
def Settled (parser : Parser) (identity : String) (c : Slot) : Prop :=
  ∀ f, c.index = some f → f.dirty = false →
    ∃ text, c.text = some text ∧ f.contents.reread parser identity text = f.contents

variable {parser : Parser} {identity : String} {c c' : Slot}

theorem settled_reindexed {f : FileIndex} (hid : f.identity = identity) (text : Text) :
    (f.reindexed text parser).contents.reread parser identity text =
      (f.reindexed text parser).contents := by
  rw [FileIndex.contents_reindexed, hid, Contents.reread_reread]

/-- A clean index stays settled because no move gives it a text without indexing it or
marking it. -/
theorem Move.settled (hm : Move parser identity c c') (hk : c.Keyed identity)
    (h : c.Settled parser identity) : c'.Settled parser identity := by
  intro f hf hclean
  cases hm with
  | opened text =>
    cases hf
    cases hclean
  | changed text =>
    unfold Slot.changed at hf ⊢
    split at hf
    · cases hf
      cases hclean
    · exact h f hf hclean
  | forgotten => cases hf
  | indexed text =>
    cases hf
    exact ⟨text, rfl, settled_reindexed hk.entry text⟩
  | refreshed =>
    rcases c.refreshed_cases parser identity with he | ⟨_, text, _, _, _, he⟩ <;> rw [he] at hf ⊢
    · exact h f hf hclean
    · cases hf
      exact ⟨text, rfl, settled_reindexed hk.entry text⟩

/-- In a settled slot the contents after a refresh are those after reading the text again. -/
theorem Settled.contents_freshened {f : FileIndex} {text : Text} (h : c.Settled parser identity)
    (hf : c.index = some f) (ht : c.text = some text) (hid : f.identity = identity) :
    (f.freshened c.text parser).contents = f.contents.reread parser identity text := by
  cases hd : f.dirty with
  | true =>
    simp only [FileIndex.freshened, ht, hd, ↓reduceIte]
    rw [FileIndex.contents_reindexed, hid]
  | false =>
    obtain ⟨text', ht', hsame⟩ := h f hf hd
    cases ht.symm.trans ht'
    rw [FileIndex.freshened_of_clean hd, hsame]

end Slot

namespace Service

/-- Every index stands under its own identity, and every clean one is settled. -/
structure Coherent (parser : Parser) (s : Service) : Prop where
  keyed : s.Keyed
  settled : ∀ identity, (s.slot identity).Settled parser identity

variable {tools : Tools} {s s' : Service}

theorem Coherent.steps (h : s.Coherent tools.parser) (hs : Steps tools s s') :
    s'.Coherent tools.parser := by
  obtain ⟨hk, hset⟩ := Steps.slots (fun i c c' hk hset hm => Slot.Move.settled hm hk hset) hs
    h.keyed h.settled
  exact ⟨hk, hset⟩

theorem new_coherent (parser : Parser) (evictOnClose verbose : Bool) :
    (new evictOnClose verbose).Coherent parser :=
  ⟨new_keyed _ _, fun _ _ h => nomatch h⟩

/-- In every state that a service can get into, to read a text again would change nothing that a query
can see. -/
theorem run_coherent (tools : Tools) (evictOnClose verbose : Bool) (ops : List Operation) :
    ((new evictOnClose verbose).run tools ops).Coherent tools.parser :=
  (new_coherent tools.parser evictOnClose verbose).steps (run_steps _ tools ops)

end Service

end LuaSymbols
