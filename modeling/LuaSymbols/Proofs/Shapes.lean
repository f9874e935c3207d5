import LuaSymbols.Proofs.Nesting

namespace LuaSymbols

namespace Outline

inductive Role where
  | statement
  | expression

/-- What is asked of the places in an outline, and of what stands in the place of a function's name. -/
structure Demands where
  place : Span → Prop
  name : Span → Prop
  jump : Span → Prop
  head : Outline → Prop

/-- The outline is made as a statement or as an expression is, and meets all demands. Jumps are
statements, and a statement that is not looked into is no jump. -/
inductive Shaped (d : Demands) : Role → Outline → Prop
  | identifier {span : Span} : d.place span → d.name span → Shaped d .expression (.identifier span)
  | member {base : Outline} {id : Span} {indexer : String} {span : Span} :
      d.place span → base.Shaped d .expression → d.place id → d.name id →
      Shaped d .expression (.member base id indexer span)
  | call {base : Outline} {arguments : List Outline} {span : Span} :
      d.place span → base.Shaped d .expression → (∀ o ∈ arguments, o.Shaped d .expression) →
      Shaped d .expression (.call base arguments span)
  | function {role : Role} {name : Option Outline} {body : List Outline} {isLocal : Bool}
      {span : Span} : d.place span → (∀ o ∈ name, o.Shaped d .expression) → (∀ o ∈ name, d.head o) →
      (∀ o ∈ body, o.Shaped d .statement) → Shaped d role (.function name body isLocal span)
  | callStatement {expression : Outline} {span : Span} :
      d.place span → expression.Shaped d .expression →
      Shaped d .statement (.callStatement expression span)
  | block {kind : String} {body : List Outline} {span : Span} :
      d.place span → (∀ o ∈ body, o.Shaped d .statement) → Shaped d .statement (.block kind body span)
  | jump {kind : String} {span : Span} : d.place span → Label.isJump kind = true → d.jump span →
      Shaped d .statement (.jump kind span)
  | unsupported {role : Role} {kind : String} {span : Span} :
      d.place span → (role = .statement → Label.isJump kind = false) →
      Shaped d role (.unsupported kind span)

end Outline

open Outline (Demands)

def Label.declaresFunction (kind : String) : Bool :=
  kind == "function_declaration" || kind == "local_function_declaration"

/-- A node that a name is made of: a name itself, or what stands in the role of a field or a method. -/
def Label.isNamePlace (l : Label) : Bool :=
  l.kind == "identifier" || l.field == some "field" || l.field == some "method"

structure Label.Meets (d : Demands) (l : Label) : Prop where
  place : d.place l.span
  name : l.isNamePlace = true → d.name l.span
  jump : Label.isJump l.kind = true → d.jump l.span

/-- The readings of a node meet the demands. -/
structure Reading.Shaped (d : Demands) (r : Reading) : Prop where
  label : r.label.Meets d
  statement : r.statement.Shaped d .statement
  expression : r.expression.Shaped d .expression
  statements : ∀ o ∈ r.statements, o.Shaped d .statement
  expressions : ∀ o ∈ r.expressions, o.Shaped d .expression
  body : ∀ o ∈ r.body, o.Shaped d .statement
  consequence : ∀ o ∈ r.consequence, o.Shaped d .statement

namespace Reading

variable {d : Demands} {label : Label} {children : List Reading}

theorem shaped_statementsOf (hc : ∀ c ∈ children, c.Shaped d) :
    ∀ o ∈ statementsOf children, o.Shaped d .statement := by
  intro o ho
  obtain ⟨c, hmem, rfl⟩ := List.mem_map.mp ho
  exact (hc c ((List.filter_sublist.trans List.filter_sublist).subset hmem)).statement

theorem shaped_expressionsOf (hc : ∀ c ∈ children, c.Shaped d) :
    ∀ o ∈ expressionsOf children, o.Shaped d .expression := by
  intro o ho
  obtain ⟨c, hmem, rfl⟩ := List.mem_map.mp ho
  exact (hc c ((List.filter_sublist.trans List.filter_sublist).subset hmem)).expression

theorem shaped_bodyIn (hc : ∀ c ∈ children, c.Shaped d) (field : String) :
    ∀ o ∈ bodyIn children field, o.Shaped d .statement := by
  rw [bodyIn_eq]
  cases hblock : blockIn? children field with
  | none => exact nofun
  | some block => exact (hc block (blockIn?_mem hblock)).statements

theorem shaped_alternatives (hc : ∀ c ∈ children, c.Shaped d) :
    ∀ o ∈ alternatives children, o.Shaped d .statement := by
  intro o ho
  obtain ⟨c, hmem, ho⟩ := List.mem_flatMap.mp ho
  have hshaped := hc c (List.mem_filter.mp hmem).1
  split at ho
  · exact hshaped.consequence o ho
  · exact hshaped.body o ho

/-- A call without arguments or without a name still has the place of its node. -/
theorem shaped_callOf (hl : label.Meets d) (hc : ∀ c ∈ children, c.Shaped d) :
    (callOf label children).Shaped d .expression := by
  refine .call hl.place ?_ ?_
  · split
    · rename_i c hcallee
      rcases Option.or_eq_some_iff.mp hcallee with hname | ⟨_, hfirst⟩
      · exact (hc c (child?_mem hname).1).expression
      · split at hfirst
        · have hmem := List.mem_filter.mp (List.mem_of_mem_head? hfirst)
          exact (hc c hmem.1).expression
        · cases hfirst
    · exact .unsupported hl.place nofun
  · split
    · rename_i list hlist
      exact (hc list (argumentsIn?_mem hlist)).expressions
    · exact nofun

/-- The name of a member is demanded only where its role makes it one. -/
theorem shaped_memberOf (hl : label.Meets d) (hc : ∀ c ∈ children, c.Shaped d) {field : String}
    (hfield : field = "field" ∨ field = "method") (indexer : String) :
    (memberOf label children field indexer).Shaped d .expression := by
  unfold memberOf
  split
  · rename_i table id htable hid
    obtain ⟨hmem, hrole⟩ := child?_mem hid
    have hplace : id.label.isNamePlace = true := by
      rcases hfield with rfl | rfl <;> simp [Label.isNamePlace, hrole]
    have hlabel := (hc id hmem).label
    exact .member hl.place (hc table (child?_mem htable).1).expression hlabel.place
      (hlabel.name hplace)
  · exact .unsupported hl.place nofun

/-- What is asked of the head of a function is asked of the child in the role of its name, and of no
other. -/
theorem shaped_functionOf (hl : label.Meets d) (hc : ∀ c ∈ children, c.Shaped d)
    (hhead : ∀ c, child? children "name" = some c → d.head c.expression) :
    (functionOf label children).Shaped d .statement := by
  refine .function hl.place ?_ ?_ (shaped_bodyIn hc "body")
  all_goals
    intro o ho
    obtain ⟨c, hfound, rfl⟩ := Option.map_eq_some_iff.mp ho
  · exact (hc c (child?_mem hfound).1).expression
  · exact hhead c hfound

/-- One case for each kind of statement, by the same split as the reading. -/
theorem shaped_statementOf (hl : label.Meets d) (hc : ∀ c ∈ children, c.Shaped d)
    (hhead : Label.declaresFunction label.kind = true →
      ∀ c, child? children "name" = some c → d.head c.expression) :
    (statementOf label children).Shaped d .statement := by
  unfold statementOf
  split
  iterate 2
    · rename_i hkind
      exact shaped_functionOf hl hc (hhead (by rw [hkind]; rfl))
  · exact .callStatement hl.place (shaped_callOf hl hc)
  iterate 4
    · exact .block hl.place (shaped_bodyIn hc "body")
  · refine .block hl.place ?_
    intro o ho
    rcases List.mem_append.mp ho with ho | ho
    · exact shaped_bodyIn hc "consequence" o ho
    · exact shaped_alternatives hc o ho
  iterate 2
    · rename_i hkind
      have hjump : Label.isJump label.kind = true := by
        rw [hkind]
        rfl
      exact .jump hl.place hjump (hl.jump hjump)
  · rename_i hgoto hlabel
    exact .unsupported hl.place fun _ => by simpa [Label.isJump] using ⟨hgoto, hlabel⟩

theorem shaped_expressionOf (hl : label.Meets d) (hc : ∀ c ∈ children, c.Shaped d) :
    (expressionOf label children).Shaped d .expression := by
  unfold expressionOf
  split
  · rename_i hkind
    exact .identifier hl.place (hl.name (by simp [Label.isNamePlace, hkind]))
  · exact shaped_callOf hl hc
  · exact shaped_memberOf hl hc (.inl rfl) "."
  · exact shaped_memberOf hl hc (.inr rfl) ":"
  · exact .function hl.place nofun nofun (shaped_bodyIn hc "body")
  · split
    · rename_i inner hinner
      exact shaped_expressionsOf hc inner (by simp [hinner])
    · exact .unsupported hl.place nofun
  · exact .unsupported hl.place nofun

/-- The readings of a node meet the demands if the node does and those of its children do. -/
theorem shaped_ofNode (hl : label.Meets d) (hc : ∀ c ∈ children, c.Shaped d)
    (hhead : Label.declaresFunction label.kind = true →
      ∀ c, child? children "name" = some c → d.head c.expression) :
    (ofNode label children).Shaped d where
  label := hl
  statement := shaped_statementOf hl hc hhead
  expression := shaped_expressionOf hl hc
  statements := shaped_statementsOf hc
  expressions := shaped_expressionsOf hc
  body := shaped_bodyIn hc "body"
  consequence := shaped_bodyIn hc "consequence"

end Reading

namespace ParseTree

variable {d : Demands}

def child? (t : ParseTree) (field : String) : Option ParseTree :=
  t.children.find? fun c => c.label.field == some field

theorem child?_readings (children : List ParseTree) (field : String) :
    Reading.child? (readings children) field =
      (children.find? fun c => c.label.field == some field).map reading := by
  rw [readings_eq_map, Reading.child?, List.find?_map]
  congr 2
  funext c
  simp [label_reading]

/-- A node meets the demands, and if it is a declared function, so does its name. -/
structure Meets (d : Demands) (t : ParseTree) : Prop where
  label : t.label.Meets d
  head : Label.declaresFunction t.label.kind = true →
    ∀ name ∈ t.child? "name", d.head name.reading.expression

mutual

/-- Together with the next theorem by induction over the tree: each node is met once, with its
children settled. -/
theorem reading_shaped (t : ParseTree) (h : ∀ n ∈ t.nodes, n.Meets d) : t.reading.Shaped d := by
  match t with
  | .node label children =>
    simp only [nodes, List.mem_cons, forall_eq_or_imp] at h
    refine Reading.shaped_ofNode h.1.label (readings_shaped children h.2) ?_
    intro hkind c hc
    rw [child?_readings] at hc
    obtain ⟨name, hname, rfl⟩ := Option.map_eq_some_iff.mp hc
    exact h.1.head hkind name hname

theorem readings_shaped (ts : List ParseTree) (h : ∀ n ∈ nodesOf ts, n.Meets d) :
    ∀ r ∈ readings ts, r.Shaped d := by
  match ts with
  | [] => exact nofun
  | t :: rest =>
    simp only [nodesOf, List.mem_append] at h
    intro r hr
    rcases List.mem_cons.mp hr with rfl | hr
    · exact reading_shaped t fun n hn => h n (.inl hn)
    · exact readings_shaped rest (fun n hn => h n (.inr hn)) r hr

end

/-- The statements of a document meet what is asked of the nodes of its parse tree. -/
theorem outline_shaped {t : ParseTree} (h : ∀ n ∈ t.nodes, n.Meets d) :
    ∀ o ∈ t.outline, o.Shaped d .statement :=
  (reading_shaped t h).statements

end ParseTree

end LuaSymbols
