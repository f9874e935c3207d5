import LuaSymbols.Proofs.Nesting

namespace LuaSymbols

def Label.respan (g : Span → Span) (l : Label) : Label := { l with span := g l.span }

namespace Outline

mutual

def respan (g : Span → Span) : Outline → Outline
  | .identifier span => .identifier (g span)
  | .member base id indexer span => .member (respan g base) (g id) indexer (g span)
  | .call base arguments span => .call (respan g base) (respanAll g arguments) (g span)
  | .function name body isLocal span =>
    .function (respanName g name) (respanAll g body) isLocal (g span)
  | .callStatement expression span => .callStatement (respan g expression) (g span)
  | .block kind body span => .block kind (respanAll g body) (g span)
  | .jump kind span => .jump kind (g span)
  | .unsupported kind span => .unsupported kind (g span)

def respanAll (g : Span → Span) : List Outline → List Outline
  | [] => []
  | o :: rest => respan g o :: respanAll g rest

def respanName (g : Span → Span) : Option Outline → Option Outline
  | none => none
  | some o => some (respan g o)

end

theorem respanAll_eq_map (g : Span → Span) (os : List Outline) : respanAll g os = os.map (respan g) := by
  induction os with
  | nil => rfl
  | cons o os ih => rw [respanAll, ih, List.map_cons]

theorem respanName_eq_map (g : Span → Span) (name : Option Outline) :
    respanName g name = name.map (respan g) := by
  cases name <;> rfl

end Outline

namespace Reading

def respan (g : Span → Span) (r : Reading) : Reading where
  label := r.label.respan g
  statement := r.statement.respan g
  expression := r.expression.respan g
  statements := r.statements.map (Outline.respan g)
  expressions := r.expressions.map (Outline.respan g)
  body := r.body.map (Outline.respan g)
  consequence := r.consequence.map (Outline.respan g)

variable (g : Span → Span) (label : Label) (children : List Reading)

theorem child?_respan (field : String) :
    child? (children.map (respan g)) field = (child? children field).map (respan g) := by
  rw [child?, List.find?_map]
  rfl

theorem ofKind?_respan (kind : String) :
    ofKind? (children.map (respan g)) kind = (ofKind? children kind).map (respan g) := by
  rw [ofKind?, List.find?_map]
  rfl

theorem named_respan : named (children.map (respan g)) = (named children).map (respan g) := by
  rw [named, List.filter_map]
  rfl

theorem statementsOf_respan :
    statementsOf (children.map (respan g)) = (statementsOf children).map (Outline.respan g) := by
  rw [statementsOf, named_respan, List.filter_map, List.map_map, statementsOf, List.map_map]
  rfl

theorem expressionsOf_respan :
    expressionsOf (children.map (respan g)) = (expressionsOf children).map (Outline.respan g) := by
  rw [expressionsOf, named_respan, List.filter_map, List.map_map, expressionsOf, List.map_map]
  rfl

theorem bodyIn_respan (field : String) :
    bodyIn (children.map (respan g)) field = (bodyIn children field).map (Outline.respan g) := by
  rw [bodyIn, child?_respan, ofKind?_respan, ← Option.map_or, bodyIn]
  cases (child? children field).or (ofKind? children "block") <;> rfl

theorem alternatives_respan :
    alternatives (children.map (respan g)) = (alternatives children).map (Outline.respan g) := by
  rw [alternatives, List.filter_map, List.flatMap_map, alternatives, List.map_flatMap]
  apply List.flatMap_congr
  intro c _
  cases h : c.label.kind == "elseif_statement" <;> simp [respan, Label.respan, h]

/-- Also the fallback on the first named child is one that places do not decide. -/
theorem callOf_respan :
    callOf (label.respan g) (children.map (respan g)) = (callOf label children).respan g := by
  have harguments : (child? (children.map (respan g)) "arguments").or
      (ofKind? (children.map (respan g)) "arguments") =
        ((child? children "arguments").or (ofKind? children "arguments")).map (respan g) := by
    rw [child?_respan, ofKind?_respan, Option.map_or]
  have hcallee : (child? (children.map (respan g)) "name").or
      (if (named (children.map (respan g))).length > 1 then (named (children.map (respan g))).head?
        else none) =
        ((child? children "name").or
          (if (named children).length > 1 then (named children).head? else none)).map (respan g) := by
    rw [child?_respan, named_respan, List.length_map, List.head?_map, Option.map_or]
    split <;> rfl
  simp only [callOf, harguments, hcallee, Outline.respan, Outline.respanAll_eq_map]
  generalize (child? children "arguments").or (ofKind? children "arguments") = list
  generalize (child? children "name").or _ = callee
  cases list <;> cases callee <;> rfl

theorem memberOf_respan (field indexer : String) :
    memberOf (label.respan g) (children.map (respan g)) field indexer =
      (memberOf label children field indexer).respan g := by
  rw [memberOf, child?_respan, child?_respan, memberOf]
  cases child? children "table" <;> cases child? children field <;> rfl

theorem functionOf_respan :
    functionOf (label.respan g) (children.map (respan g)) = (functionOf label children).respan g := by
  have hlocal : (children.map (respan g)).any (fun c => c.label.kind == "local") =
      children.any fun c => c.label.kind == "local" := by
    rw [List.any_map]
    rfl
  simp only [functionOf, hlocal, child?_respan, bodyIn_respan, Outline.respan,
    Outline.respanAll_eq_map, Outline.respanName_eq_map, Option.map_map]
  rfl

/-- One case for each kind of statement; the split is on the kind, which stays. -/
theorem statementOf_respan :
    statementOf (label.respan g) (children.map (respan g)) = (statementOf label children).respan g := by
  have hkind : (label.respan g).kind = label.kind := rfl
  unfold statementOf
  rw [hkind]
  split
  iterate 2
    · exact functionOf_respan g label children
  · rw [callOf_respan]
    rfl
  iterate 4
    · rw [bodyIn_respan, Outline.respan, Outline.respanAll_eq_map]
      rfl
  · rw [bodyIn_respan, alternatives_respan, Outline.respan, Outline.respanAll_eq_map,
      List.map_append]
    rfl
  all_goals rfl

theorem expressionOf_respan :
    expressionOf (label.respan g) (children.map (respan g)) =
      (expressionOf label children).respan g := by
  have hkind : (label.respan g).kind = label.kind := rfl
  unfold expressionOf
  rw [hkind]
  split
  · rfl
  · exact callOf_respan g label children
  · exact memberOf_respan g label children "field" "."
  · exact memberOf_respan g label children "method" ":"
  · rw [bodyIn_respan, Outline.respan, Outline.respanAll_eq_map]
    rfl
  · rw [expressionsOf_respan]
    rcases expressionsOf children with _ | ⟨inner, _ | ⟨second, more⟩⟩ <;> rfl
  · rfl

theorem ofNode_respan :
    ofNode (label.respan g) (children.map (respan g)) = (ofNode label children).respan g := by
  simp only [ofNode, respan, statementOf_respan, expressionOf_respan, statementsOf_respan,
    expressionsOf_respan, bodyIn_respan]

end Reading

namespace ParseTree

mutual

def respan (g : Span → Span) : ParseTree → ParseTree
  | .node label children => .node (label.respan g) (respanAll g children)

def respanAll (g : Span → Span) : List ParseTree → List ParseTree
  | [] => []
  | t :: rest => respan g t :: respanAll g rest

end

variable (g : Span → Span)

theorem label_respan (t : ParseTree) : (t.respan g).label = t.label.respan g := by
  cases t
  rfl

mutual

theorem reading_respan (t : ParseTree) : (t.respan g).reading = t.reading.respan g := by
  match t with
  | .node label children =>
    simp only [respan, reading, readings_respan children, Reading.ofNode_respan]

theorem readings_respan (ts : List ParseTree) :
    readings (respanAll g ts) = (readings ts).map (Reading.respan g) := by
  match ts with
  | [] => rfl
  | t :: rest => simp only [respanAll, readings, reading_respan t, readings_respan rest, List.map_cons]

end

theorem outline_respan (t : ParseTree) :
    (t.respan g).outline = t.outline.map (Outline.respan g) := by
  rw [outline, reading_respan]
  rfl

mutual

theorem firstError?_respan (t : ParseTree) :
    (t.respan g).firstError? = t.firstError?.map (Label.respan g) := by
  match t with
  | .node label children =>
    have hself : (label.respan g).isError = label.isError := rfl
    simp only [respan, firstError?, hself, firstErrorAmong?_respan children]
    split <;> rfl

theorem firstErrorAmong?_respan (ts : List ParseTree) :
    firstErrorAmong? (respanAll g ts) = (firstErrorAmong? ts).map (Label.respan g) := by
  match ts with
  | [] => rfl
  | t :: rest =>
    simp only [respanAll, firstErrorAmong?, label_respan, firstError?_respan t,
      firstErrorAmong?_respan rest, Label.respan]
    cases t.firstError? <;> split <;> rfl

end

mutual

/-- The first error is a node of the tree. -/
theorem mem_of_firstError? (t : ParseTree) {l : Label} (h : t.firstError? = some l) :
    ∃ n ∈ t.nodes, n.label = l := by
  match t with
  | .node label children =>
    simp only [firstError?] at h
    split at h
    · cases h
      exact ⟨.node l children, by simp [nodes], rfl⟩
    · obtain ⟨n, hn, hl⟩ := mem_of_firstErrorAmong? children h
      exact ⟨n, by simp [nodes, hn], hl⟩

theorem mem_of_firstErrorAmong? (ts : List ParseTree) {l : Label} (h : firstErrorAmong? ts = some l) :
    ∃ n ∈ nodesOf ts, n.label = l := by
  match ts with
  | [] => cases h
  | t :: rest =>
    have hrest (h : firstErrorAmong? rest = some l) : ∃ n ∈ nodesOf (t :: rest), n.label = l := by
      obtain ⟨n, hn, hl⟩ := mem_of_firstErrorAmong? rest h
      exact ⟨n, by simp [nodesOf, hn], hl⟩
    simp only [firstErrorAmong?] at h
    split at h
    · split at h
      · rename_i found hfound
        cases h
        obtain ⟨n, hn, hl⟩ := mem_of_firstError? t hfound
        exact ⟨n, by simp [nodesOf, hn], hl⟩
      · exact hrest h
    · exact hrest h

end

end ParseTree

end LuaSymbols
