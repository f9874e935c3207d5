import LuaSymbols.Proofs.Coherence
import LuaSymbols.Proofs.Definitions

namespace LuaSymbols

namespace Slot

def Tracked (c : Slot) : Prop := c.text.isSome = true → c.index.isSome = true

/-- Texts come with an index and go with it. -/
theorem Move.tracked {parser : Parser} {identity : String} {c c' : Slot}
    (hm : Move parser identity c c') (h : c.Tracked) : c'.Tracked := by
  intro htext
  cases hm with
  | opened text => rfl
  | changed text =>
    unfold Slot.changed at htext ⊢
    split
    · rfl
    · rename_i hnone
      simp only [hnone] at htext
      exact h htext
  | forgotten => cases htext
  | indexed text => rfl
  | refreshed =>
    have hindex := h htext
    simpa [Slot.refreshed] using hindex

end Slot

namespace Service

variable {tools : Tools} {s s' : Service}

theorem Steps.tracked (hs : Steps tools s s') (hk : s.Keyed) (h : ∀ i, (s.slot i).Tracked) :
    ∀ i, (s'.slot i).Tracked :=
  (Steps.slots (Q := fun _ c => c.Tracked) (fun _ _ _ _ hc hm => hm.tracked hc) hs hk h).2

/-- Documents are tracked under their identities, never under another name. -/
def Normal (s : Service) : Prop := ∀ key ∈ s.workspace.keys, identityOf key = key

theorem Step.normal (hs : Step tools s s') (h : s.Normal) : s'.Normal := by
  intro key hkey
  rcases hs.keys_cases with he | ⟨uri, he⟩ | ⟨uri, he⟩ <;> rw [he] at hkey
  · exact h key hkey
  · unfold enlist at hkey
    split at hkey
    · exact h key hkey
    · rcases List.mem_append.mp hkey with hold | hnew
      · exact h key hold
      · rw [List.mem_singleton.mp hnew, identityOf_identityOf]
  · exact h key (List.mem_of_mem_filter hkey)

theorem Steps.normal (hs : Steps tools s s') (h : s.Normal) : s'.Normal := by
  induction hs with
  | refl => exact h
  | tail _ hstep ih => exact hstep.normal ih

/-- What holds between and within the store of texts and the store of indexes. -/
structure Intact (s : Service) : Prop where
  distinct : s.workspace.keys.Nodup
  normal : ∀ key ∈ s.workspace.keys, identityOf key = key
  keyed : ∀ key f, (key, f) ∈ s.workspace → f.identity = key
  tracked : ∀ identity, s.documents.has identity = true → s.workspace.has identity = true
  stored : ∀ key f, (key, f) ∈ s.workspace → f.dirty = false → s.documents.has key = true
  container : ∀ key f, (key, f) ∈ s.workspace → ∀ d ∈ f.symbols, d.container = f.identity
  names : ∀ key f, (key, f) ∈ s.workspace → f.byName.keys = (f.symbols.map (·.name)).eraseDups
  last : ∀ key f, (key, f) ∈ s.workspace → ∀ name,
    f.byName.get? name = (f.symbols.filter fun d => d.name == name).getLast?

/-- The stores are intact after every history, with every parser and every console, and also where
operations of the history have ended in faults. -/
theorem run_intact (tools : Tools) (evictOnClose verbose : Bool) (ops : List Operation) :
    ((new evictOnClose verbose).run tools ops).Intact := by
  have hsteps := run_steps (new evictOnClose verbose) tools ops
  have ho := run_orderly tools evictOnClose verbose ops
  have hc := run_coherent tools evictOnClose verbose ops
  have hnormal := Steps.normal hsteps (fun _ h => nomatch h)
  have htracked := Steps.tracked hsteps (new_keyed _ _) (fun _ h => nomatch h)
  generalize (new evictOnClose verbose).run tools ops = s at *
  have hget : ∀ key f, (key, f) ∈ s.workspace → s.workspace.get? key = some f :=
    fun _ _ h => Table.get?_of_mem ho.nodup h
  refine ⟨ho.nodup, hnormal, ?_, ?_, ?_, ?_, ?_, ?_⟩
  · intro key f hf
    exact ho.keyed key f (hget key f hf)
  · intro identity htext
    rw [Table.has_eq_isSome] at htext ⊢
    exact htracked identity htext
  · intro key f hf hclean
    obtain ⟨text, ht, _⟩ := hc.settled key f (hget key f hf) hclean
    exact Table.has_iff.mpr ⟨text, ht⟩
  · intro key f hf
    exact (ho.consistent key f (hget key f hf)).container
  · intro key f hf
    rw [(ho.consistent key f (hget key f hf)).byName, FileIndex.keys_tabulate]
  · intro key f hf name
    rw [(ho.consistent key f (hget key f hf)).byName, FileIndex.get?_tabulate]

end Service

end LuaSymbols
