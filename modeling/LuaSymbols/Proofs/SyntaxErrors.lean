import LuaSymbols.Proofs.Cursor

namespace LuaSymbols

namespace ParseTree

/-- The mark of a node is the true one: the node is an error itself, or a child is marked. -/
def Marked (n : ParseTree) : Prop :=
  n.label.faulty = (n.label.isError || n.children.any fun c => c.label.faulty)

def TrulyMarked (t : ParseTree) : Prop := ∀ n ∈ t.nodes, n.Marked

instance (n : ParseTree) : Decidable n.Marked :=
  inferInstanceAs (Decidable (n.label.faulty = _))

instance (t : ParseTree) : Decidable t.TrulyMarked :=
  inferInstanceAs (Decidable (∀ n ∈ t.nodes, n.Marked))

mutual

/-- A true mark says whether the tree has an error at all. With the next theorem by induction over
the tree. -/
theorem faulty_eq_any (t : ParseTree) (h : t.TrulyMarked) :
    t.label.faulty = t.nodes.any fun n => n.label.isError := by
  match t with
  | .node label children =>
    simp only [TrulyMarked, nodes, List.mem_cons, forall_eq_or_imp] at h
    have hself : label.faulty = (label.isError || children.any fun c => c.label.faulty) := h.1
    rw [nodes, List.any_cons, ← children_faulty_eq_any children h.2]
    exact hself

theorem children_faulty_eq_any (ts : List ParseTree) (h : ∀ n ∈ nodesOf ts, n.Marked) :
    (ts.any fun t => t.label.faulty) = (nodesOf ts).any fun n => n.label.isError := by
  match ts with
  | [] => rfl
  | t :: rest =>
    simp only [nodesOf, List.mem_append] at h
    rw [List.any_cons, nodesOf, List.any_append, faulty_eq_any t fun n hn => h n (.inl hn),
      children_faulty_eq_any rest fun n hn => h n (.inr hn)]

end

mutual

/-- Nothing is missed by looking below marked nodes only. -/
theorem firstError?_eq_find? (t : ParseTree) (h : t.TrulyMarked) :
    t.firstError? = (t.nodes.find? fun n => n.label.isError).map label := by
  match t with
  | .node label children =>
    simp only [TrulyMarked, nodes, List.mem_cons, forall_eq_or_imp] at h
    rw [firstError?, nodes, List.find?_cons, firstErrorAmong?_eq_find? children h.2]
    cases herror : label.isError <;> simp [ParseTree.label, herror]

/-- A tree without a mark has no error, so passing over it loses none. -/
theorem firstErrorAmong?_eq_find? (ts : List ParseTree) (h : ∀ n ∈ nodesOf ts, n.Marked) :
    firstErrorAmong? ts = ((nodesOf ts).find? fun n => n.label.isError).map label := by
  match ts with
  | [] => rfl
  | t :: rest =>
    simp only [nodesOf, List.mem_append] at h
    have ht : t.TrulyMarked := fun n hn => h n (.inl hn)
    rw [firstErrorAmong?, nodesOf, List.find?_append, Option.map_or, ← firstError?_eq_find? t ht,
      ← firstErrorAmong?_eq_find? rest fun n hn => h n (.inr hn)]
    split
    · cases t.firstError? <;> rfl
    · rename_i hclean
      simp only [Bool.or_eq_true, not_or, Bool.not_eq_true] at hclean
      have hnone : t.firstError? = none := by
        rw [firstError?_eq_find? t ht, Option.map_eq_none_iff, List.find?_eq_none]
        rw [faulty_eq_any t ht] at hclean
        exact List.any_eq_false.mp hclean.1
      rw [hnone, Option.none_or]

end

/-- A node does not end before it starts, and its children lie in it one after the other. -/
@[mk_iff]
structure Aligned (n : ParseTree) : Prop where
  forward : n.label.span.start.offset ≤ n.label.span.stop.offset
  lined : n.label.span.Lined (n.children.map fun c => c.label.span)

def InOrder (t : ParseTree) : Prop := ∀ n ∈ t.nodes, n.Aligned

instance (n : ParseTree) : Decidable n.Aligned := decidable_of_iff' _ (aligned_iff n)

instance (t : ParseTree) : Decidable t.InOrder :=
  inferInstanceAs (Decidable (∀ n ∈ t.nodes, n.Aligned))

mutual

theorem covers_nodes (t : ParseTree) (h : t.InOrder) :
    ∀ n ∈ t.nodes, t.label.span.Covers n.label.span := by
  match t with
  | .node label children =>
    simp only [InOrder, nodes, List.mem_cons, forall_eq_or_imp] at h ⊢
    refine ⟨.refl _, ?_⟩
    intro n hn
    obtain ⟨c, hc, hcovers⟩ := covers_nodesOf children h.2 n hn
    exact (h.1.lined.within _ (List.mem_map_of_mem hc)).trans hcovers

theorem covers_nodesOf (ts : List ParseTree) (h : ∀ n ∈ nodesOf ts, n.Aligned) :
    ∀ n ∈ nodesOf ts, ∃ t ∈ ts, t.label.span.Covers n.label.span := by
  match ts with
  | [] => exact nofun
  | t :: rest =>
    simp only [nodesOf, List.mem_append] at h
    intro n hn
    rcases List.mem_append.mp hn with hn | hn
    · exact ⟨t, List.mem_cons_self, covers_nodes t (fun n hn => h n (.inl hn)) n hn⟩
    · obtain ⟨u, hu, hcovers⟩ := covers_nodesOf rest (fun n hn => h n (.inr hn)) n hn
      exact ⟨u, List.mem_cons_of_mem _ hu, hcovers⟩

end

mutual

/-- The nodes are listed in the order in which they start. -/
theorem nodes_pairwise (t : ParseTree) (h : t.InOrder) :
    t.nodes.Pairwise fun a b => a.label.span.start.offset ≤ b.label.span.start.offset := by
  match t with
  | .node label children =>
    have hcovers := covers_nodes _ h
    simp only [InOrder, nodes, List.mem_cons, forall_eq_or_imp] at h hcovers
    refine List.pairwise_cons.mpr ⟨fun n hn => (hcovers.2 n hn).1, ?_⟩
    exact nodesOf_pairwise children h.2 (List.pairwise_map.mp h.1.lined.ordered)

/-- Nodes of one tree are in order by the theorem above, nodes of two trees because the
trees are. -/
theorem nodesOf_pairwise (ts : List ParseTree) (h : ∀ n ∈ nodesOf ts, n.Aligned)
    (hordered : ts.Pairwise fun a b => a.label.span.Before b.label.span) :
    (nodesOf ts).Pairwise fun a b => a.label.span.start.offset ≤ b.label.span.start.offset := by
  match ts with
  | [] => exact .nil
  | t :: rest =>
    simp only [nodesOf, List.mem_append] at h
    obtain ⟨hbefore, hordered⟩ := List.pairwise_cons.mp hordered
    have ht : t.InOrder := fun n hn => h n (.inl hn)
    have hrest : ∀ n ∈ nodesOf rest, n.Aligned := fun n hn => h n (.inr hn)
    refine List.pairwise_append.mpr
      ⟨nodes_pairwise t ht, nodesOf_pairwise rest hrest hordered, ?_⟩
    intro a ha b hb
    obtain ⟨u, hu, hub⟩ := covers_nodesOf rest hrest b hb
    -- From the start of `a` to its end, to the end of `t`, to the start of `u`, to the start of `b`.
    have haa := (ht a ha).forward
    have hta := (covers_nodes t ht a ha).2
    have htu := hbefore u hu
    have hub := hub.1
    simp only [Span.Before] at htu
    omega

end

/-- The first error in the order of the nodes is the first one in the text. -/
theorem InOrder.first_error {t bad : ParseTree} (h : t.InOrder)
    (hbad : (t.nodes.find? fun n => n.label.isError) = some bad) :
    ∀ n ∈ t.nodes, n.label.isError = true →
      bad.label.span.start.offset ≤ n.label.span.start.offset := by
  intro n hn herror
  obtain ⟨_, front, rest, hnodes, hfront⟩ := List.find?_eq_some_iff_append.mp hbad
  have hordered := nodes_pairwise t h
  rw [hnodes] at hordered hn
  rcases List.mem_append.mp hn with hn | hn
  · have hclean : n.label.isError = false := by simpa using hfront n hn
    simp [hclean] at herror
  · rcases List.mem_cons.mp hn with rfl | hn
    · exact Nat.le_refl _
    · exact (List.pairwise_cons.mp (List.pairwise_append.mp hordered).2.1).1 n hn

end ParseTree

def Cause.isSyntax : Cause → Bool
  | .malformed | .unexpected | .missing _ => true
  | .invalidCharacter | .jump _ | .reported _ => false

inductive ParseError.InLowering : ParseError → Prop
  | jump (word : String) (p : Position) : InLowering (.failure ⟨.jump word, some p⟩)
  | fault (f : Fault) : InLowering (.fault f)

def StopsLowering {α : Type} (x : Except ParseError α) : Prop := ∀ why, x = .error why → why.InLowering

theorem StopsLowering.ok {α : Type} (a : α) : StopsLowering (.ok a) := nofun

/-- Steps that can only stop in lowering make up a computation that can only stop there. -/
theorem StopsLowering.bind {α β : Type} {x : Except ParseError α} {f : α → Except ParseError β}
    (hx : StopsLowering x) (hf : ∀ a, StopsLowering (f a)) : StopsLowering (x >>= f) := by
  intro why h
  rcases error_of_bind h with h | ⟨a, _, h⟩
  · exact hx why h
  · exact hf a why h

namespace Outline

variable (src : Source) (version : String)

theorem stops_place (span : Span) : StopsLowering (place src span) := by
  intro why h
  unfold place at h
  cases hr : src.range span with
  | ok r => simp [hr, Except.mapError] at h
  | error f =>
    simp only [hr, Except.mapError, Except.error.injEq] at h
    subst h
    exact .fault f

theorem stops_nameAt (span : Span) : StopsLowering (nameAt src span) :=
  (stops_place src span).bind fun _ => .ok _

theorem refuseJump_inLowering (span : Span) : (refuseJump src span).InLowering := by
  unfold refuseJump
  split
  · exact .jump _ _
  · exact .fault _

mutual

/-- One case for each kind of outline, by the rule for steps. -/
theorem stops_resolve (o : Outline) : StopsLowering (resolve src version o) := by
  match o with
  | .identifier span => exact (stops_nameAt src span).bind fun _ => .ok _
  | .unsupported kind span => exact (stops_place src span).bind fun _ => .ok _
  | .member base id indexer span =>
    simp only [resolve]
    apply (stops_resolve base).bind
    intro base'
    apply (stops_nameAt src id).bind
    intro id'
    exact (stops_place src span).bind fun _ => .ok _
  | .call base arguments span =>
    simp only [resolve]
    apply (stops_resolveAll arguments).bind
    intro arguments'
    apply (stops_resolve base).bind
    intro base'
    exact (stops_place src span).bind fun _ => .ok _
  | .function name body isLocal span =>
    simp only [resolve]
    apply (stops_resolveName name).bind
    intro name'
    apply (stops_resolveAll body).bind
    intro body'
    exact (stops_place src span).bind fun _ => .ok _
  | .callStatement expression span =>
    simp only [resolve]
    apply (stops_resolve expression).bind
    intro expression'
    exact (stops_place src span).bind fun _ => .ok _
  | .block kind body span =>
    simp only [resolve]
    apply (stops_resolveAll body).bind
    intro body'
    exact (stops_place src span).bind fun _ => .ok _
  | .jump kind span =>
    simp only [resolve]
    split
    · intro why h
      cases h
      exact refuseJump_inLowering src span
    · exact (stops_place src span).bind fun _ => .ok _

theorem stops_resolveAll (os : List Outline) : StopsLowering (resolveAll src version os) := by
  match os with
  | [] => exact .ok _
  | o :: rest =>
    simp only [resolveAll]
    apply (stops_resolve o).bind
    intro node
    exact (stops_resolveAll rest).bind fun _ => .ok _

theorem stops_resolveName (name : Option Outline) : StopsLowering (resolveName src version name) := by
  match name with
  | none => exact .ok _
  | some o => exact (stops_resolve o).bind fun _ => .ok _

end

end Outline

namespace ParseFailure

theorem head?_missing (kind : String) (p : Option Position) :
    (⟨.missing kind, p⟩ : ParseFailure).message.toList.head? = some 'M' := by
  change ("Missing '" ++ kind ++ "'").toList.head? = _
  simp

theorem head?_jump (word : String) (p : Option Position) :
    (⟨.jump word, p⟩ : ParseFailure).message.toList.head? = some '\'' := by
  change ("'" ++ word ++ "' requires Lua 5.2 or later").toList.head? = _
  simp

end ParseFailure

namespace ParseTree

def failureAt (n : ParseTree) (src : Source) : ParseFailure :=
  ⟨if n.label.missing then .missing n.label.kind else .unexpected,
    some (src.position n.label.span.start)⟩

variable {t bad : ParseTree} {src : Source} {version : String}

theorem isSyntax_failureAt (n : ParseTree) (src : Source) :
    (n.failureAt src).cause.isSyntax = true := by
  unfold failureAt
  split <;> rfl

/-- The two messages are told apart by their first letter, whatever the missing kind is called. -/
theorem message_failureAt (n : ParseTree) (src : Source) :
    ((n.failureAt src).message = s!"Missing '{n.label.kind}'" ↔ n.label.missing = true) ∧
    ((n.failureAt src).message = "Unexpected syntax" ↔ n.label.missing = false) ∧
    (n.failureAt src).message ≠ "Syntax error" := by
  have hhead := ParseFailure.head?_missing n.label.kind (some (src.position n.label.span.start))
  unfold failureAt
  cases n.label.missing with
  | true =>
    refine ⟨by simp [ParseFailure.message], ?_, ?_⟩
    · simp only [↓reduceIte, Bool.true_eq_false, iff_false]
      intro h
      simp [h] at hhead
    · intro h
      simp only [↓reduceIte] at h
      simp [h] at hhead
  | false =>
    have hmessage : ∀ p, (⟨.unexpected, p⟩ : ParseFailure).message = "Unexpected syntax" := fun _ => rfl
    simp only [Bool.false_eq_true, ↓reduceIte, hmessage, iff_false, true_and]
    refine ⟨?_, by decide⟩
    intro h
    have hhead : "Unexpected syntax".toList.head? = some 'M' := h ▸ hhead
    simp at hhead

theorem lower_of_error (h : t.TrulyMarked)
    (hbad : (t.nodes.find? fun n => n.label.isError) = some bad) :
    t.lower src version = .error (.failure (bad.failureAt src)) := by
  have hfaulty : t.label.faulty = true := by
    rw [faulty_eq_any t h, List.any_eq_true]
    exact ⟨bad, List.mem_of_find?_eq_some hbad, (List.find?_eq_some_iff_append.mp hbad).1⟩
  rw [lower, hfaulty, describeError, firstError?_eq_find? t h, hbad]
  rfl

theorem lower_of_no_error (h : t.TrulyMarked)
    (hnone : (t.nodes.find? fun n => n.label.isError) = none) :
    StopsLowering (t.lower src version) := by
  have hfaulty : t.label.faulty = false := by
    rw [faulty_eq_any t h]
    exact List.any_eq_false.mpr (List.find?_eq_none.mp hnone)
  rw [lower, hfaulty]
  exact (Outline.stops_resolveAll src version t.outline).bind fun _ => .ok _

end ParseTree

/-- A text is refused for its syntax exactly if some node of its parse tree is an error. It is refused for
the first such node of all, at its place, and no other one starts earlier if the nodes lie in order. The
failure without a place and a reason is never given. -/
theorem Text.parseWith_firstError (cs : List Char) (version : String) (tree : ParseTree)
    (hmarks : tree.TrulyMarked) :
    let parsed := (Text.ofChars cs).parseWith version fun _ => some tree
    ((∃ f, parsed = .error (.failure f) ∧ f.cause.isSyntax = true) ↔
      ∃ n ∈ tree.nodes, n.label.isError = true) ∧
    (∀ bad, (tree.nodes.find? fun n => n.label.isError) = some bad →
      (∃ f, parsed = .error (.failure f) ∧
        f.position = some ((Source.ofChars cs).position bad.label.span.start) ∧
        (f.message = s!"Missing '{bad.label.kind}'" ↔ bad.label.missing = true) ∧
        (f.message = "Unexpected syntax" ↔ bad.label.missing = false)) ∧
      (tree.InOrder → ∀ n ∈ tree.nodes, n.label.isError = true →
        bad.label.span.start.offset ≤ n.label.span.start.offset)) ∧
    ∀ f, parsed = .error (.failure f) → f.message ≠ "Syntax error" ∧ f.position ≠ none := by
  intro parsed
  have hparsed : parsed = tree.lower (.ofChars cs) version := parseWith_ofChars rfl
  rw [hparsed]
  cases hfound : tree.nodes.find? fun n => n.label.isError with
  | none =>
    have hstops : StopsLowering (tree.lower (.ofChars cs) version) :=
      ParseTree.lower_of_no_error hmarks hfound
    have hclean : ¬ ∃ n ∈ tree.nodes, n.label.isError = true := by
      simpa using List.find?_eq_none.mp hfound
    refine ⟨⟨?_, fun h => absurd h hclean⟩, nofun, ?_⟩
    · intro ⟨f, hf, hsyntax⟩
      cases hstops _ hf with
      | jump word p => cases hsyntax
    · intro f hf
      cases hstops _ hf with
      | jump word p =>
        refine ⟨?_, nofun⟩
        intro h
        -- A jump is quoted, so its message cannot start like the other one.
        have hhead := ParseFailure.head?_jump word (some p)
        simp [h] at hhead
  | some bad =>
    have hlower : tree.lower (.ofChars cs) version = .error (.failure (bad.failureAt (.ofChars cs))) :=
      ParseTree.lower_of_error hmarks hfound
    have herror := (List.find?_eq_some_iff_append.mp hfound).1
    obtain ⟨hmissing, hunexpected, hother⟩ := bad.message_failureAt (.ofChars cs)
    rw [hlower]
    refine ⟨⟨?_, ?_⟩, ?_, ?_⟩
    · intro _
      exact ⟨bad, List.mem_of_find?_eq_some hfound, herror⟩
    · intro _
      exact ⟨_, rfl, bad.isSyntax_failureAt _⟩
    · intro first hfirst
      cases hfirst
      exact ⟨⟨_, rfl, rfl, hmissing, hunexpected⟩, fun h => h.first_error hfound⟩
    · intro f hf
      cases hf
      exact ⟨hother, nofun⟩

/-- A call that is not closed, behind a character of two bytes, and junk on the next line. -/
def spoiled : List Char := "é(1\nx==".toList

def spoiledPart (kind : String) (missing : Bool) (start stop : Nat) (children : List ParseTree) :
    ParseTree :=
  .make kind none true missing ⟨.after (spoiled.take start), .after (spoiled.take stop)⟩ children

def spoiledBracket : ParseTree := spoiledPart ")" true 3 3 []

def spoiledTree : ParseTree :=
  spoiledPart "chunk" false 0 7
    [spoiledPart "function_call" false 0 3
      [spoiledPart "identifier" false 0 1 [],
       spoiledPart "arguments" false 1 3 [spoiledPart "number" false 2 3 [], spoiledBracket]],
     spoiledPart "ERROR" false 4 7 []]

/-- A missing bracket before a stretch outside the grammar, behind a wide character. -/
theorem Text.parseWith_firstError_spoiled :
    spoiledTree.TrulyMarked ∧ spoiledTree.InOrder ∧
    (spoiledTree.nodes.find? fun n => n.label.isError) = some spoiledBracket ∧
    (∃ f, (Text.ofChars spoiled).parseWith "5.4" (fun _ => some spoiledTree) = .error (.failure f) ∧
      f.position = some ⟨0, 3⟩ ∧ f.message = "Missing ')'") ∧
    ∀ n ∈ spoiledTree.nodes, n.label.isError = true → 4 ≤ n.label.span.start.offset := by
  have hchecked : spoiledTree.TrulyMarked ∧ spoiledTree.InOrder := by decide +kernel
  obtain ⟨hmarks, horder⟩ := hchecked
  have hbad : (spoiledTree.nodes.find? fun n => n.label.isError) = some spoiledBracket := by rfl
  obtain ⟨_, hfirst, _⟩ := parseWith_firstError spoiled "5.4" spoiledTree hmarks
  obtain ⟨⟨f, hparsed, hposition, hmissing, _⟩, hearliest⟩ := hfirst _ hbad
  have hplace : (Source.ofChars spoiled).position spoiledBracket.label.span.start = ⟨0, 3⟩ := by
    decide +kernel
  exact ⟨hmarks, horder, hbad, ⟨f, hparsed, hplace ▸ hposition, hmissing.mpr rfl⟩, hearliest horder⟩

end LuaSymbols
