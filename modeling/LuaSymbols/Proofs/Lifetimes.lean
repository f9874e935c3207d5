import LuaSymbols.Proofs.Indexing

namespace LuaSymbols

/-- The answer to an attempt to index a text: the failure to parse it, none if all went well, or the fault
of the parser or of the walk. -/
def Parser.answer (parser : Parser) (identity : String) (text : Text) :
    Except Fault (Option ParseFailure) :=
  match parser text with
  | .error (.failure failure) => .ok (some failure)
  | .error (.fault fault) => .error fault
  | .ok tree => (tree.walk identity).map fun _ => none

namespace FileIndex

inductive Event where
  | rebuild (text : Text)
  | markDirty

/-- What has been done to an index: it was marked, or a text was given to it, with the answer. -/
inductive Entry where
  | marked
  | attempted (text : Text) (answer : Except Fault (Option ParseFailure))

namespace Entry

def indexed? : Entry → Option Text
  | .attempted text (.ok none) => some text
  | _ => none

def returned? : Entry → Option (Option ParseFailure)
  | .attempted _ (.ok failure) => some failure
  | _ => none

def mark? : Entry → Option Bool
  | .marked => some true
  | .attempted _ (.ok none) => some false
  | .attempted _ _ => none

end Entry

variable {f : FileIndex} {parser : Parser} {identity : String} {log : List Entry} {text : Text}

/-- The index after an event. A fault leaves it as it was when the fault was met. -/
def meet (f : FileIndex) (parser : Parser) : Event → FileIndex
  | .rebuild text => f.reindexed text parser
  | .markDirty => f.markDirty

def entry (f : FileIndex) (parser : Parser) : Event → Entry
  | .rebuild text => .attempted text ((f.rebuild text parser).map Prod.snd)
  | .markDirty => .marked

def live (f : FileIndex) (parser : Parser) (events : List Event) : FileIndex :=
  events.foldl (fun f event => f.meet parser event) f

def record (f : FileIndex) (parser : Parser) : List Event → List Entry
  | [] => []
  | event :: rest => f.entry parser event :: (f.meet parser event).record parser rest

/-- The index shows what a walk has found in the text, or nothing if there is no text. -/
def Shows (f : FileIndex) (parser : Parser) (identity : String) : Option Text → Prop
  | none => f.occurrences = [] ∧ f.symbols = []
  | some text => ∃ tree found, parser text = .ok tree ∧ tree.walk identity = .ok found ∧
      f.occurrences = found.occurrences.toList ∧ f.symbols = found.symbols.toList

/-- The index is what its record says. -/
structure Reflects (f : FileIndex) (parser : Parser) (identity : String) (log : List Entry) : Prop where
  about : f.identity = identity
  /-- The last text that was indexed is shown, whatever has come after it. -/
  shown : f.Shows parser identity (log.filterMap Entry.indexed?).getLast?
  names : f.byName.keys = (f.symbols.map (·.name)).eraseDups
  last : ∀ name, f.byName.get? name = (f.symbols.filter fun d => d.name == name).getLast?
  walks : f.walkCount = (log.filterMap Entry.indexed?).length
  error : f.lastError = (log.filterMap Entry.returned?).getLast?.join
  dirty : f.dirty = (log.filterMap Entry.mark?).getLast?.getD true

/-- The three ways in which an attempt can go. -/
theorem rebuild_cases (f : FileIndex) (text : Text) (parser : Parser) :
    (∃ failure, f.rebuild text parser = .ok (f.fail failure, some failure)) ∨
    (∃ tree found, parser text = .ok tree ∧ tree.walk f.identity = .ok found ∧
      f.rebuild text parser = .ok (f.accept found, none)) ∨
    ∃ fault, f.rebuild text parser = .error fault := by
  cases hp : parser text with
  | error why =>
    cases why with
    | failure failure => exact .inl ⟨failure, rebuild_of_failure hp⟩
    | fault fault => exact .inr (.inr ⟨fault, by simp only [rebuild, hp]⟩)
  | ok tree =>
    cases hw : tree.walk f.identity with
    | ok found => exact .inr (.inl ⟨tree, found, rfl, hw, rebuild_of_found hp hw⟩)
    | error fault => exact .inr (.inr ⟨fault, by simp only [rebuild, hp, hw]⟩)

theorem reindexed_of_fault {fault : Fault} (h : f.rebuild text parser = .error fault) :
    f.reindexed text parser = f := by
  simp only [reindexed, h]

/-- What an attempt returns depends on the text and on the document, and not on what the
index knew. -/
theorem rebuild_answer (f : FileIndex) (text : Text) (parser : Parser) :
    (f.rebuild text parser).map Prod.snd = parser.answer f.identity text := by
  simp only [rebuild, Parser.answer]
  cases parser text with
  | error why => cases why <;> rfl
  | ok tree =>
    dsimp only
    cases tree.walk f.identity <;> rfl

theorem filterMap_concat {α β : Type} (g : α → Option β) (l : List α) (a : α) :
    (l ++ [a]).filterMap g = l.filterMap g ++ (g a).toList := by
  cases h : g a <;> simp [h]

theorem getLast?_filterMap_concat {α β : Type} (g : α → Option β) (l : List α) (a : α) :
    ((l ++ [a]).filterMap g).getLast? = (g a).or (l.filterMap g).getLast? := by
  rw [filterMap_concat]
  cases g a <;> simp

theorem Reflects.new (parser : Parser) (identity : String) :
    (FileIndex.new identity).Reflects parser identity [] where
  about := rfl
  shown := ⟨rfl, rfl⟩
  names := rfl
  last := fun _ => rfl
  walks := rfl
  error := rfl
  dirty := rfl

/-- Where nothing is indexed, only the failure and the mark can be new. -/
theorem Reflects.keep (h : f.Reflects parser identity log) {e : Entry} (he : e.indexed? = none)
    {mark : Bool} {failure : Option ParseFailure}
    (herror : failure = ((log ++ [e]).filterMap Entry.returned?).getLast?.join)
    (hdirty : mark = ((log ++ [e]).filterMap Entry.mark?).getLast?.getD true) :
    ({ f with dirty := mark, lastError := failure } : FileIndex).Reflects parser identity
      (log ++ [e]) where
  about := h.about
  shown := by
    rw [getLast?_filterMap_concat, he]
    exact h.shown
  names := h.names
  last := h.last
  walks := by
    rw [filterMap_concat, he, Option.toList_none, List.append_nil]
    exact h.walks
  error := herror
  dirty := hdirty

theorem Reflects.markDirty (h : f.Reflects parser identity log) :
    f.markDirty.Reflects parser identity (log ++ [.marked]) := by
  apply h.keep rfl
  · rw [getLast?_filterMap_concat]
    exact h.error
  · rw [getLast?_filterMap_concat]
    rfl

theorem Reflects.fail (h : f.Reflects parser identity log) (text : Text) (failure : ParseFailure) :
    (f.fail failure).Reflects parser identity (log ++ [.attempted text (.ok (some failure))]) := by
  apply h.keep rfl
  · rw [getLast?_filterMap_concat]
    rfl
  · rw [getLast?_filterMap_concat]
    exact h.dirty

theorem Reflects.fault (h : f.Reflects parser identity log) (text : Text) (fault : Fault) :
    f.Reflects parser identity (log ++ [.attempted text (.error fault)]) := by
  apply h.keep rfl
  · rw [getLast?_filterMap_concat]
    exact h.error
  · rw [getLast?_filterMap_concat]
    exact h.dirty

/-- What a walk has found replaces all that was there. -/
theorem Reflects.accept (h : f.Reflects parser identity log) {tree : Node} {found : Findings}
    (hp : parser text = .ok tree) (hw : tree.walk f.identity = .ok found) :
    (f.accept found).Reflects parser identity (log ++ [.attempted text (.ok none)]) where
  about := h.about
  shown := by
    rw [getLast?_filterMap_concat]
    exact ⟨tree, found, hp, h.about ▸ hw, rfl, rfl⟩
  names := keys_tabulate _
  last := get?_tabulate _
  walks := by
    rw [filterMap_concat, List.length_append, ← h.walks]
    rfl
  error := by
    rw [getLast?_filterMap_concat]
    rfl
  dirty := by
    rw [getLast?_filterMap_concat]
    rfl

/-- The step: whatever the event does to the index it enters in the record. -/
theorem Reflects.meet (h : f.Reflects parser identity log) (event : Event) :
    (f.meet parser event).Reflects parser identity (log ++ [f.entry parser event]) := by
  cases event with
  | markDirty => exact h.markDirty
  | rebuild text =>
    simp only [FileIndex.meet, FileIndex.entry, reindexed]
    rcases rebuild_cases f text parser with ⟨failure, hr⟩ | ⟨tree, found, hp, hw, hr⟩ | ⟨fault, hr⟩
    · rw [hr]
      exact h.fail text failure
    · rw [hr]
      exact h.accept hp hw
    · rw [hr]
      exact h.fault text fault

theorem Reflects.live (h : f.Reflects parser identity log) (events : List Event) :
    (f.live parser events).Reflects parser identity (log ++ f.record parser events) := by
  induction events generalizing f log with
  | nil => simpa [record, FileIndex.live] using h
  | cons event rest ih =>
    have hrest := ih (h.meet event)
    rwa [List.append_assoc, List.singleton_append] at hrest

/-- After every history an index is what its record says: it shows what the walk of the last text that
was indexed has found, with the last declaration of each name; it counts the texts that were indexed; and it
keeps the failure of the last attempt that came to its end, if that has failed. The answer to an attempt is
up to the parser and the walk alone, and one that a fault breaks off leaves the index as it was. -/
theorem live_reflects (parser : Parser) (identity : String) (events : List Event) :
    let f := (new identity).live parser events
    f.Reflects parser identity ((new identity).record parser events) ∧
    (∀ text, (f.rebuild text parser).map Prod.snd = parser.answer identity text) ∧
    ∀ text fault, f.rebuild text parser = .error fault →
      (new identity).live parser (events ++ [.rebuild text]) = f := by
  intro f
  have hreflects := (Reflects.new parser identity).live events
  rw [List.nil_append] at hreflects
  refine ⟨hreflects, ?_, ?_⟩
  · intro text
    rw [rebuild_answer, hreflects.about]
  · intro text fault hfault
    rw [live, List.foldl_append]
    exact reindexed_of_fault hfault

/-- A parser with all the ways to end: it gives a tree, a tree that the walk stops in, a fault or a
failure. -/
def erratic : Parser := fun text =>
  if text = Text.ofString "f" then .ok (.recursion "f" (.point .origin))
  else if text = Text.ofString "g" then
    .ok (.chunk [.identifier ⟨"g", .point .origin⟩, .foreign])
  else if text = Text.ofString "h" then .error (.fault .wordlessJump)
  else .error (.failure ⟨.unexpected, some .origin⟩)

/-- A text is indexed, the next one does not parse, and the last two break the work off. -/
def troubled : List Event :=
  [.rebuild (Text.ofString "f"), .markDirty, .rebuild (Text.ofString "f("),
    .rebuild (Text.ofString "g"), .rebuild (Text.ofString "h")]

theorem live_reflects_troubled :
    let f := (new "a").live erratic troubled
    f.Reflects erratic "a" ((new "a").record erratic troubled) ∧
    f.symbols.map (·.name) = ["f"] ∧ f.walkCount = 1 ∧ f.dirty = true ∧
    f.lastError = some ⟨.unexpected, some .origin⟩ ∧
    f.rebuild (Text.ofString "g") erratic = .error .foreignNode ∧
    (new "a").live erratic (troubled ++ [.rebuild (Text.ofString "g")]) = f := by
  intro f
  obtain ⟨hreflects, _, hkept⟩ := live_reflects erratic "a" troubled
  have hfault : f.rebuild (Text.ofString "g") erratic = .error .foreignNode := rfl
  exact ⟨hreflects, by decide, by decide, by decide, by decide, hfault, hkept _ _ hfault⟩

end FileIndex

end LuaSymbols
