import LuaSymbols.Command.Run

namespace LuaSymbols.Command

variable {α β : Type}

theorem run_bind (x : Action α) (f : α → Action β) (t : Transcript) :
    (x >>= f).run t = match x.run t with
      | (.ok a, t') => (f a).run t'
      | (.error stop, t') => (.error stop, t') := by
  unfold ExceptT.run
  simp only [bind, ExceptT.bind, ExceptT.mk, StateT.bind, ExceptT.bindCont]
  rcases x t with ⟨_ | a, t'⟩ <;> rfl

/-- Whatever has been shown before, the action gets to its end exactly under the given condition. -/
def Action.EndsIff (act : Action α) (condition : Prop) : Prop :=
  ∀ t, (act.run t).1.isOk = true ↔ condition

namespace Action

/-- Of two actions both have to get to their ends. -/
theorem EndsIff.bind {x : Action α} {f : α → Action β} {p q : Prop} (hx : x.EndsIff p)
    (hf : ∀ a, (f a).EndsIff q) : EndsIff (x >>= f) (p ∧ q) := by
  intro t
  have hfirst := hx t
  rw [run_bind]
  cases hrun : x.run t with
  | mk result t' =>
    rw [hrun] at hfirst
    cases result with
    | error stop => exact iff_of_false nofun fun h => nomatch hfirst.mpr h.1
    | ok a => exact (hf a t').trans (and_iff_right (hfirst.mp rfl)).symm

theorem EndsIff.congr {act : Action α} {p q : Prop} (h : act.EndsIff p) (hpq : p ↔ q) :
    act.EndsIff q :=
  fun t => (h t).trans hpq

/-- The only action here that can stop, and exactly if the console refuses the text. -/
theorem endsIff_shown (c : Console) (markup : String) :
    (shown c markup).EndsIff ((c markup).isSome = true) := by
  intro t
  unfold shown
  cases c markup with
  | none => exact iff_of_false nofun nofun
  | some line => exact iff_of_true rfl rfl

theorem endsIff_modify (f : Transcript → Transcript) : EndsIff (modify f) True :=
  fun _ => iff_of_true rfl trivial

theorem endsIff_mapM {act : α → Action β} {p : α → Prop} (h : ∀ a, (act a).EndsIff (p a))
    (l : List α) : EndsIff (l.mapM act) (∀ a ∈ l, p a) := by
  induction l with
  | nil => exact fun _ => iff_of_true rfl nofun
  | cons a l ih =>
    rw [List.mapM_cons]
    refine ((h a).bind fun b => ih.bind fun rest => fun _ => iff_of_true rfl trivial).congr ?_
    rw [and_true, List.forall_mem_cons]

theorem endsIff_say (c : Console) (markup : String) :
    (say c markup).EndsIff ((c markup).isSome = true) :=
  ((endsIff_shown c markup).bind fun _ => endsIff_modify _).congr (and_iff_left trivial)

/-- A table is shown exactly if the console shows its title and each text in it. -/
theorem endsIff_table (c : Console) (title : String) (rows : List (List String)) :
    (table c title rows).EndsIff ((c title).isSome = true ∧
      ∀ cells ∈ rows, ∀ cell ∈ cells, (c cell).isSome = true) := by
  refine ((endsIff_shown c title).bind fun _ =>
    (endsIff_mapM (fun cells => endsIff_mapM (endsIff_shown c) cells) rows).bind fun _ =>
      endsIff_modify _).congr ?_
  rw [and_true]

end Action

def reportTexts (directory : FilePath) (report : Report) : List String :=
  "Lua Index" :: (reportCells directory report).flatten ++ [report.summary]

theorem endsIff_showReport (c : Console) (directory : FilePath) (report : Report) :
    (showReport c directory report).EndsIff
      (∀ markup ∈ reportTexts directory report, (c markup).isSome = true) := by
  refine ((Action.endsIff_table c _ _).bind fun _ => Action.endsIff_say c _).congr ?_
  rw [reportTexts, List.forall_mem_append, List.forall_mem_cons, List.forall_mem_flatten,
    List.forall_mem_singleton]

end LuaSymbols.Command
