import LuaSymbols.Proofs.Cursor
import LuaSymbols.Proofs.Resolution
import LuaSymbols.Proofs.Shapes

namespace LuaSymbols

namespace Node

def statements : Node → List Node
  | .chunk body | .function _ body _ _ | .block _ body _ => body
  | _ => []

def jump? : Node → Option Range
  | .unsupported kind range => if Label.isJump kind then some range else none
  | _ => none

/-- The ranges of the jumps and labels in all lists of statements of a tree. -/
def jumps (tree : Node) : List Range := (tree.nodes.flatMap statements).filterMap jump?

theorem mem_jumps {node : Node} {r : Range} : r ∈ node.jumps ↔
    (∃ s ∈ node.statements, s.jump? = some r) ∨ ∃ part ∈ node.parts, r ∈ part.jumps := by
  simp only [jumps]
  rw [nodes_eq, List.flatMap_cons, List.filterMap_append, List.mem_append, List.mem_filterMap,
    List.flatMap_assoc, List.filterMap_flatMap, List.mem_flatMap]

end Node

namespace Outline

variable {src : Source} {version : String} {α β : Type}

mutual

/-- The places of the jumps and labels of an outline, in the order in which they are come upon. -/
def jumps : Outline → List Span
  | .jump _ span => [span]
  | .member base _ _ _ => jumps base
  | .call base arguments _ => jumpsOf arguments ++ jumps base
  | .function name body _ _ => jumpsOfName name ++ jumpsOf body
  | .callStatement expression _ => jumps expression
  | .block _ body _ => jumpsOf body
  | .identifier _ | .unsupported _ _ => []

def jumpsOf : List Outline → List Span
  | [] => []
  | o :: rest => jumps o ++ jumpsOf rest

def jumpsOfName : Option Outline → List Span
  | none => []
  | some o => jumps o

end

mutual

/-- A dialect is asked for its name only at jumps, and all names but one are alike there. -/
theorem resolve_congr {version' : String} (hv : version ≠ jumplessVersion)
    (hv' : version' ≠ jumplessVersion) (o : Outline) :
    resolve src version o = resolve src version' o := by
  match o with
  | .identifier span | .unsupported kind span => rfl
  | .jump kind span => simp only [resolve, hv, hv', ↓reduceIte]
  | .member base id indexer span => simp only [resolve, resolve_congr hv hv' base]
  | .call base arguments span =>
    simp only [resolve, resolve_congr hv hv' base, resolveAll_congr hv hv' arguments]
  | .function name body isLocal span =>
    simp only [resolve, resolveName_congr hv hv' name, resolveAll_congr hv hv' body]
  | .callStatement expression span => simp only [resolve, resolve_congr hv hv' expression]
  | .block kind body span => simp only [resolve, resolveAll_congr hv hv' body]

theorem resolveAll_congr {version' : String} (hv : version ≠ jumplessVersion)
    (hv' : version' ≠ jumplessVersion) (os : List Outline) :
    resolveAll src version os = resolveAll src version' os := by
  match os with
  | [] => rfl
  | o :: rest => simp only [resolveAll, resolve_congr hv hv' o, resolveAll_congr hv hv' rest]

theorem resolveName_congr {version' : String} (hv : version ≠ jumplessVersion)
    (hv' : version' ≠ jumplessVersion) (name : Option Outline) :
    resolveName src version name = resolveName src version' name := by
  match name with
  | none => rfl
  | some o => simp only [resolveName, resolve_congr hv hv' o]

end

/-- A result, unless there is a jump: then the first one is refused. -/
def unlessJump (src : Source) (jumps : List Span) (a : α) : Except ParseError α :=
  match jumps with
  | [] => .ok a
  | span :: _ => .error (refuseJump src span)

theorem unlessJump_bind {front rest : List Span} {a : α} {b : β} {f : α → Except ParseError β}
    (h : f a = unlessJump src rest b) :
    unlessJump src front a >>= f = unlessJump src (front ++ rest) b := by
  cases front with
  | nil => exact h
  | cons span front => rfl

theorem unlessJump_map {spans : List Span} {a : α} {b : β} {f : α → Except ParseError β}
    (h : f a = .ok b) : unlessJump src spans a >>= f = unlessJump src spans b := by
  cases spans with
  | nil => exact h
  | cons span spans => rfl

mutual

/-- Where another dialect gives a node, the one without jumps gives the same or refuses the first
jump. -/
theorem resolve_jumpless (hv : version ≠ jumplessVersion) (o : Outline) {node : Node}
    (h : resolve src version o = .ok node) :
    resolve src jumplessVersion o = unlessJump src o.jumps node := by
  match o with
  | .identifier span | .unsupported kind span => exact h
  | .jump kind span => simp [resolve, jumps, unlessJump]
  | .member base id indexer span =>
    simp only [resolve] at h ⊢
    obtain ⟨base', hbase, h⟩ := exists_of_bind_ok h
    rw [resolve_jumpless hv base hbase]
    exact unlessJump_map h
  | .call base arguments span =>
    simp only [resolve] at h ⊢
    obtain ⟨arguments', hargs, h⟩ := exists_of_bind_ok h
    obtain ⟨base', hbase, h⟩ := exists_of_bind_ok h
    rw [resolveAll_jumpless hv arguments hargs, resolve_jumpless hv base hbase]
    exact unlessJump_bind (unlessJump_map h)
  | .function name body isLocal span =>
    simp only [resolve] at h ⊢
    obtain ⟨name', hname, h⟩ := exists_of_bind_ok h
    obtain ⟨body', hbody, h⟩ := exists_of_bind_ok h
    rw [resolveName_jumpless hv name hname, resolveAll_jumpless hv body hbody]
    exact unlessJump_bind (unlessJump_map h)
  | .callStatement expression span =>
    simp only [resolve] at h ⊢
    obtain ⟨expression', he, h⟩ := exists_of_bind_ok h
    rw [resolve_jumpless hv expression he]
    exact unlessJump_map h
  | .block kind body span =>
    simp only [resolve] at h ⊢
    obtain ⟨body', hbody, h⟩ := exists_of_bind_ok h
    rw [resolveAll_jumpless hv body hbody]
    exact unlessJump_map h

theorem resolveAll_jumpless (hv : version ≠ jumplessVersion) (os : List Outline) {nodes : List Node}
    (h : resolveAll src version os = .ok nodes) :
    resolveAll src jumplessVersion os = unlessJump src (jumpsOf os) nodes := by
  match os with
  | [] => exact h
  | o :: rest =>
    simp only [resolveAll] at h ⊢
    obtain ⟨node, hnode, h⟩ := exists_of_bind_ok h
    obtain ⟨nodes', hrest, h⟩ := exists_of_bind_ok h
    rw [resolve_jumpless hv o hnode, resolveAll_jumpless hv rest hrest]
    exact unlessJump_bind (unlessJump_map h)

theorem resolveName_jumpless (hv : version ≠ jumplessVersion) (name : Option Outline)
    {name' : Option Node} (h : resolveName src version name = .ok name') :
    resolveName src jumplessVersion name = unlessJump src (jumpsOfName name) name' := by
  match name with
  | none => exact h
  | some o =>
    simp only [resolveName] at h ⊢
    obtain ⟨node, hnode, h⟩ := exists_of_bind_ok h
    rw [resolve_jumpless hv o hnode]
    exact unlessJump_map h

end

end Outline

namespace Node

open Outline (Role)

/-- The jumps and labels that a node shows in a role: those in the lists of its tree, and as a statement
also itself. -/
def Shows (role : Role) (node : Node) (r : Range) : Prop :=
  role = .statement ∧ node.jump? = some r ∨ r ∈ node.jumps

variable {role : Role} {r range : Range}

theorem shows_expression {node : Node} : node.Shows .expression r ↔ r ∈ node.jumps := by
  simp [Shows]

/-- What a node shows that is no jump itself. -/
theorem shows_iff {node : Node} (h : node.jump? = none) : node.Shows role r ↔
    (∃ s ∈ node.statements, s.jump? = some r) ∨ ∃ part ∈ node.parts, r ∈ part.jumps := by
  rw [Shows, h, mem_jumps]
  simp

theorem shows_body {body : List Node} : (∃ node ∈ body, node.Shows .statement r) ↔
    (∃ s ∈ body, s.jump? = some r) ∨ ∃ part ∈ body, r ∈ part.jumps := by
  simp only [Shows, true_and, and_or_left, exists_or]

theorem not_shows_identifier (id : Identifier) : ¬ (identifier id).Shows role r := by
  rw [shows_iff rfl]
  simp [statements, parts]

theorem shows_member {base : Node} {id : Identifier} {indexer : String} :
    (member base id indexer range).Shows role r ↔ base.Shows .expression r := by
  have hid : r ∉ (identifier id).jumps := fun h => not_shows_identifier id (.inr h : Shows role _ r)
  rw [shows_iff rfl, shows_expression]
  simp [statements, parts, hid]

theorem shows_call {base : Node} {arguments : List Node} : (call base arguments range).Shows role r ↔
    (∃ node ∈ arguments, node.Shows .expression r) ∨ base.Shows .expression r := by
  rw [shows_iff rfl]
  simp [statements, parts, shows_expression, or_comm]

/-- A function shows the jumps of its body; what stands in its name is an expression. -/
theorem shows_function {name : Option Node} {body : List Node} {isLocal : Bool} :
    (function name body isLocal range).Shows role r ↔
      (∃ node ∈ name, node.Shows .expression r) ∨ ∃ node ∈ body, node.Shows .statement r := by
  rw [shows_iff rfl, shows_body]
  simp only [statements, parts, List.mem_append, Option.mem_toList, or_and_right, exists_or,
    shows_expression]
  exact or_left_comm

theorem shows_callStatement {expression : Node} :
    (callStatement expression range).Shows role r ↔ expression.Shows .expression r := by
  rw [shows_iff rfl]
  simp [statements, parts, shows_expression]

theorem shows_block {kind : String} {body : List Node} :
    (block kind body range).Shows role r ↔ ∃ node ∈ body, node.Shows .statement r := by
  rw [shows_iff rfl, shows_body]
  rfl

theorem mem_jumps_chunk {body : List Node} :
    r ∈ (chunk body).jumps ↔ ∃ node ∈ body, node.Shows .statement r := by
  rw [mem_jumps, shows_body]
  rfl

theorem shows_unsupported {kind : String} : (unsupported kind range).Shows role r ↔
    role = .statement ∧ Label.isJump kind = true ∧ range = r := by
  rw [Shows, mem_jumps]
  simp [jump?, statements, parts]

end Node

namespace Outline

variable {P : Span → Prop} {role : Role}

/-- Jumps have places of a kind, and there is none in the name of a function. -/
def Demands.jumps (P : Span → Prop) : Demands :=
  ⟨fun _ => True, fun _ => True, P, fun o => o.jumps = []⟩

theorem mem_jumpsOf {os : List Outline} {span : Span} :
    span ∈ jumpsOf os ↔ ∃ o ∈ os, span ∈ o.jumps := by
  induction os with
  | nil => simp [jumpsOf]
  | cons o os ih => simp [jumpsOf, ih]

theorem jumpsOfName_eq_nil {name : Option Outline} (h : ∀ o ∈ name, (Demands.jumps P).head o) :
    jumpsOfName name = [] := by
  cases name with
  | none => rfl
  | some o => exact h o rfl

/-- The places of jumps are those of nodes that are jumps. -/
theorem Shaped.jump_place {o : Outline} (h : o.Shaped (.jumps P) role) : ∀ span ∈ o.jumps, P span := by
  induction h with
  | identifier _ _ | unsupported _ _ => exact nofun
  | jump _ _ hplace =>
    intro span hspan
    obtain rfl := List.mem_singleton.mp hspan
    exact hplace
  | member _ _ _ _ ih | callStatement _ _ ih => exact ih
  | call _ _ _ ihBase ihArguments =>
    intro span hspan
    rcases List.mem_append.mp hspan with hspan | hspan
    · obtain ⟨o, ho, hspan⟩ := mem_jumpsOf.mp hspan
      exact ihArguments o ho span hspan
    · exact ihBase span hspan
  | function _ _ hhead _ _ ihBody =>
    intro span hspan
    rw [jumps, jumpsOfName_eq_nil hhead, List.nil_append] at hspan
    obtain ⟨o, ho, hspan⟩ := mem_jumpsOf.mp hspan
    exact ihBody o ho span hspan
  | block _ _ ih =>
    intro span hspan
    obtain ⟨o, ho, hspan⟩ := mem_jumpsOf.mp hspan
    exact ih o ho span hspan

theorem jumpsOf_places {os : List Outline} (h : ∀ o ∈ os, o.Shaped (.jumps P) role) :
    ∀ span ∈ jumpsOf os, P span := by
  intro span hspan
  obtain ⟨o, ho, hspan⟩ := mem_jumpsOf.mp hspan
  exact (h o ho).jump_place span hspan

structure Placed (src : Source) (spans : List Span) (P : Range → Prop) : Prop where
  range : ∀ span ∈ spans, ∃ r, place src span = .ok r
  iff : ∀ r, (∃ span ∈ spans, place src span = .ok r) ↔ P r

theorem Placed.none (src : Source) {P : Range → Prop} (h : ∀ r, ¬ P r) : Placed src [] P :=
  ⟨nofun, by simp [h]⟩

/-- Places that are found one after the other show what either of them shows. -/
theorem Placed.append {front rest : List Span} {P Q : Range → Prop} (h : Placed src front P)
    (h' : Placed src rest Q) : Placed src (front ++ rest) fun r => P r ∨ Q r := by
  constructor
  · intro span hspan
    rcases List.mem_append.mp hspan with hspan | hspan
    · exact h.range span hspan
    · exact h'.range span hspan
  · intro r
    simp only [List.mem_append, or_and_right, exists_or, h.iff r, h'.iff r]

theorem Placed.congr {spans : List Span} {P Q : Range → Prop} (h : Placed src spans P)
    (he : ∀ r, Q r ↔ P r) : Placed src spans Q :=
  ⟨h.range, fun r => (h.iff r).trans (he r).symm⟩

/-- The list case, from the outlines of the list. -/
theorem placed_jumpsOf {os : List Outline} {nodes : List Node}
    (h : ∀ o ∈ os, ∀ node, resolve src version o = .ok node →
      Placed src o.jumps (node.Shows role)) (hr : resolveAll src version os = .ok nodes) :
    Placed src (jumpsOf os) fun r => ∃ node ∈ nodes, node.Shows role r := by
  induction os generalizing nodes with
  | nil =>
    cases hr
    exact .none src (by simp)
  | cons o os ih =>
    simp only [resolveAll] at hr
    obtain ⟨node, hnode, hr⟩ := exists_of_bind_ok hr
    obtain ⟨nodes', hrest, hr⟩ := exists_of_bind_ok hr
    cases hr
    rw [List.forall_mem_cons] at h
    refine ((h.1 node hnode).append (ih h.2 hrest)).congr ?_
    simp

theorem placed_jumpsOfName {name : Option Outline} {name' : Option Node}
    (h : ∀ o ∈ name, ∀ node, resolve src version o = .ok node →
      Placed src o.jumps (node.Shows .expression)) (hnone : jumpsOfName name = [])
    (hr : resolveName src version name = .ok name') :
    Placed src (jumpsOfName name) fun r => ∃ node ∈ name', node.Shows .expression r := by
  rw [hnone]
  refine .none src ?_
  rintro r ⟨node, hnode, hshows⟩
  obtain ⟨o, ho, hresolve⟩ := mem_resolveName hr hnode
  obtain ⟨span, hspan, _⟩ := ((h o ho node hresolve).iff r).mpr hshows
  cases ho
  rw [jumpsOfName] at hnone
  simp [hnone] at hspan

/-- The jumps of an outline are those that its node shows. -/
theorem Shaped.placed {o : Outline} (h : o.Shaped (.jumps P) role) (hv : version ≠ jumplessVersion)
    {node : Node} (hr : resolve src version o = .ok node) : Placed src o.jumps (node.Shows role) := by
  induction h generalizing node with
  | identifier _ _ =>
    simp only [resolve] at hr
    obtain ⟨id, _, hr⟩ := exists_of_bind_ok hr
    cases hr
    exact .none src fun r => Node.not_shows_identifier id
  | member _ _ _ _ ih =>
    simp only [resolve] at hr
    obtain ⟨base', hbase, hr⟩ := exists_of_bind_ok hr
    obtain ⟨id, _, hr⟩ := exists_of_bind_ok hr
    obtain ⟨range, _, hr⟩ := exists_of_bind_ok hr
    cases hr
    exact (ih hbase).congr fun r => Node.shows_member
  -- The arguments are resolved before what is called, so their jumps come first.
  | call _ _ _ ihBase ihArguments =>
    simp only [resolve] at hr
    obtain ⟨arguments', hargs, hr⟩ := exists_of_bind_ok hr
    obtain ⟨base', hbase, hr⟩ := exists_of_bind_ok hr
    obtain ⟨range, _, hr⟩ := exists_of_bind_ok hr
    cases hr
    have hplaced := placed_jumpsOf (fun o ho node hnode => ihArguments o ho hnode) hargs
    exact (hplaced.append (ihBase hbase)).congr fun r => Node.shows_call
  | function _ _ hhead _ ihName ihBody =>
    simp only [resolve] at hr
    obtain ⟨name', hname, hr⟩ := exists_of_bind_ok hr
    obtain ⟨body', hbody, hr⟩ := exists_of_bind_ok hr
    obtain ⟨range, _, hr⟩ := exists_of_bind_ok hr
    cases hr
    have hnames := placed_jumpsOfName (fun o ho node hnode => ihName o ho hnode)
      (jumpsOfName_eq_nil hhead) hname
    have hplaced := placed_jumpsOf (fun o ho node hnode => ihBody o ho hnode) hbody
    exact (hnames.append hplaced).congr fun r => Node.shows_function
  | callStatement _ _ ih =>
    simp only [resolve] at hr
    obtain ⟨expression', he, hr⟩ := exists_of_bind_ok hr
    obtain ⟨range, _, hr⟩ := exists_of_bind_ok hr
    cases hr
    exact (ih he).congr fun r => Node.shows_callStatement
  | block _ _ ih =>
    simp only [resolve] at hr
    obtain ⟨body', hbody, hr⟩ := exists_of_bind_ok hr
    obtain ⟨range, _, hr⟩ := exists_of_bind_ok hr
    cases hr
    have hplaced := placed_jumpsOf (fun o ho node hnode => ih o ho hnode) hbody
    exact hplaced.congr fun r => Node.shows_block
  | jump _ hkind _ =>
    simp only [resolve, hv, ↓reduceIte] at hr
    obtain ⟨range, hrange, hr⟩ := exists_of_bind_ok hr
    cases hr
    refine ⟨by simp [jumps, hrange], ?_⟩
    intro r
    rw [Node.shows_unsupported]
    simp [jumps, hrange, hkind]
  -- As a statement this is no jump, and as an expression it shows nothing.
  | unsupported _ hkind =>
    simp only [resolve] at hr
    obtain ⟨range, _, hr⟩ := exists_of_bind_ok hr
    cases hr
    refine .none src ?_
    intro r hshows
    obtain ⟨hrole, hjump, _⟩ := Node.shows_unsupported.mp hshows
    simp [hkind hrole] at hjump

theorem placed_chunk {os : List Outline} {body : List Node}
    (h : ∀ o ∈ os, o.Shaped (.jumps P) .statement) (hv : version ≠ jumplessVersion)
    (hr : resolveAll src version os = .ok body) :
    Placed src (jumpsOf os) (· ∈ (Node.chunk body).jumps) :=
  (placed_jumpsOf (fun o ho _ hnode => (h o ho).placed hv hnode) hr).congr
    fun _ => Node.mem_jumps_chunk

end Outline

namespace ParseTree

mutual

def isChain : ParseTree → Bool
  | .node label children => label.kind == "identifier" ||
    (label.kind == "dot_index_expression" || label.kind == "method_index_expression") &&
      tableIsChain children

def tableIsChain : List ParseTree → Bool
  | [] => true
  | t :: rest => if t.label.field == some "table" then isChain t else tableIsChain rest

end

mutual

/-- By induction down the chain; with the next theorem, since the table is found among
the children. -/
theorem jumps_of_isChain (t : ParseTree) (h : t.isChain = true) : t.reading.expression.jumps = [] := by
  match t with
  | .node label children =>
    simp only [isChain, Bool.or_eq_true, Bool.and_eq_true, beq_iff_eq] at h
    have hmember (field indexer : String)
        (htable : tableIsChain children = true) :
        (Reading.memberOf label (readings children) field indexer).jumps = [] := by
      unfold Reading.memberOf
      split
      · rename_i table id hfound _
        exact jumps_of_tableIsChain children htable hfound
      · rfl
    simp only [reading, Reading.ofNode, Reading.expressionOf]
    rcases h with h | ⟨h | h, htable⟩
    · simp [h, Outline.jumps]
    · simpa [h] using hmember "field" "." htable
    · simpa [h] using hmember "method" ":" htable

theorem jumps_of_tableIsChain (children : List ParseTree) (h : tableIsChain children = true)
    {table : Reading} (hfound : Reading.child? (readings children) "table" = some table) :
    table.expression.jumps = [] := by
  match children with
  | [] => cases hfound
  | t :: rest =>
    simp only [tableIsChain] at h
    simp only [readings, Reading.child?, List.find?_cons, label_reading] at hfound
    split at h
    · rename_i hfield
      rw [hfield] at hfound
      cases hfound
      exact jumps_of_isChain t h
    · rename_i hfield
      simp only [hfield] at hfound
      exact jumps_of_tableIsChain rest h hfound

end

/-- The names of declared functions are plain names or chains of them. -/
def PlainNames (t : ParseTree) : Prop := ∀ n ∈ t.nodes,
  Label.declaresFunction n.label.kind = true → ∀ name ∈ n.child? "name", name.isChain = true

/-- Every jump and every label has text other than white space. -/
def WordedJumps (src : Source) (t : ParseTree) : Prop := ∀ n ∈ t.nodes,
  Label.isJump n.label.kind = true → ∃ c ∈ src.chars n.label.span, isBlank c = false

instance (t : ParseTree) : Decidable t.PlainNames :=
  inferInstanceAs (Decidable (∀ n ∈ t.nodes, _ → ∀ name ∈ n.child? "name", _))

instance (src : Source) (t : ParseTree) : Decidable (t.WordedJumps src) :=
  -- Only the characters of the text are gone through, not all that there are.
  haveI (n : ParseTree) : Decidable (∃ c ∈ src.chars n.label.span, isBlank c = false) :=
    List.decidableBEx _ _
  inferInstanceAs (Decidable (∀ n ∈ t.nodes, _ → ∃ c ∈ src.chars n.label.span, _))

end ParseTree

theorem firstWord?_of_mem {cs : List Char} {c : Char} (hc : c ∈ cs) (h : isBlank c = false) :
    ∃ word, firstWord? cs = some word := by
  induction cs with
  | nil => cases hc
  | cons d cs ih =>
    cases hd : isBlank d with
    | true =>
      have hrest : firstWord? (d :: cs) = firstWord? cs := by simp [firstWord?, hd]
      rcases List.mem_cons.mp hc with rfl | hc
      · simp [h] at hd
      · rw [hrest]
        exact ih hc
    | false => exact ⟨d :: cs.takeWhile fun c => !isBlank c, by simp [firstWord?, hd]⟩

theorem Outline.refuseJump_of_word {src : Source} {span : Span}
    (h : ∃ c ∈ src.chars span, isBlank c = false) : ∃ word,
    refuseJump src span = .failure ⟨.jump word, some (src.position span.start)⟩ := by
  obtain ⟨c, hc, hblank⟩ := h
  obtain ⟨word, hword⟩ := firstWord?_of_mem hc hblank
  exact ⟨String.ofList word, by rw [refuseJump, hword]⟩

namespace ParseTree

variable {src : Source} {t : ParseTree}

theorem lower_congr {version version' : String} (hv : version ≠ jumplessVersion)
    (hv' : version' ≠ jumplessVersion) (t : ParseTree) (src : Source) :
    t.lower src version = t.lower src version' := by
  simp only [lower, Outline.resolveAll_congr hv hv']

/-- The name of a declared function has no jump in it. -/
theorem PlainNames.meets {P : Span → Prop} (hnames : t.PlainNames)
    (hjumps : ∀ n ∈ t.nodes, Label.isJump n.label.kind = true → P n.label.span) :
    ∀ n ∈ t.nodes, n.Meets (.jumps P) := by
  intro n hn
  refine ⟨⟨trivial, fun _ => trivial, hjumps n hn⟩, ?_⟩
  intro hkind name hname
  exact jumps_of_isChain name (hnames n hn hkind name hname)

theorem lower_unlessJump {version : String} {body : List Node} (herror : t.label.faulty = false)
    (hv : version ≠ jumplessVersion) (h : Outline.resolveAll src version t.outline = .ok body) :
    t.lower src jumplessVersion =
      .chunk <$> Outline.unlessJump src (Outline.jumpsOf t.outline) body := by
  simp only [lower, herror, Bool.false_eq_true, ↓reduceIte, Outline.resolveAll_jumpless hv _ h]

theorem lower_refused {version : String} {body : List Node} (herror : t.label.faulty = false)
    (hv : version ≠ jumplessVersion) (h : Outline.resolveAll src version t.outline = .ok body)
    {span : Span} {rest : List Span} (hjumps : Outline.jumpsOf t.outline = span :: rest)
    (hword : ∃ c ∈ src.chars span, isBlank c = false) : ∃ word,
    t.lower src jumplessVersion = .error (.failure ⟨.jump word, some (src.position span.start)⟩) := by
  obtain ⟨word, hword⟩ := Outline.refuseJump_of_word hword
  refine ⟨word, ?_⟩
  rw [lower_unlessJump herror hv h, hjumps, ← hword]
  rfl

/-- Where another dialect gives a tree without jumps, so does the one that has none; where the tree has
jumps, one of them is refused. -/
theorem lower_jumpless {version : String} {chunk : Node} (hnames : t.PlainNames)
    (hwords : t.WordedJumps src) (hv : version ≠ jumplessVersion)
    (h : t.lower src version = .ok chunk) :
    (chunk.jumps = [] → t.lower src jumplessVersion = .ok chunk) ∧
    (chunk.jumps ≠ [] → ∃ word, ∃ range ∈ chunk.jumps,
      t.lower src jumplessVersion = .error (.failure ⟨.jump word, some range.start⟩)) := by
  have herror : t.label.faulty = false := by
    cases hfaulty : t.label.faulty with
    | false => rfl
    | true => simp [lower, hfaulty] at h
  obtain ⟨body, rfl, hbody⟩ := lower_body herror h
  -- Names hold no jumps, so none is lost where a name is dropped.
  have hshaped := outline_shaped
    (hnames.meets (P := fun span => ∃ c ∈ src.chars span, isBlank c = false) hwords)
  have hplaced := Outline.placed_chunk hshaped hv hbody
  cases hjumps : Outline.jumpsOf t.outline with
  | nil =>
    rw [lower_unlessJump herror hv hbody, hjumps]
    refine ⟨fun _ => rfl, fun hne => absurd (List.eq_nil_iff_forall_not_mem.mpr ?_) hne⟩
    intro r hr
    obtain ⟨span, hspan, _⟩ := (hplaced.iff r).mpr hr
    simp [hjumps] at hspan
  | cons span rest =>
    have hmem : span ∈ Outline.jumpsOf t.outline := by simp [hjumps]
    obtain ⟨word, hlower⟩ :=
      lower_refused herror hv hbody hjumps (Outline.jumpsOf_places hshaped span hmem)
    obtain ⟨range, hrange⟩ := hplaced.range span hmem
    have hin := (hplaced.iff range).mp ⟨span, hmem, hrange⟩
    constructor
    · intro hnone
      simp [hnone] at hin
    · intro _
      refine ⟨word, range, hin, ?_⟩
      rw [(Outline.place_bounds hrange).1]
      exact hlower

end ParseTree

/-- All dialects but one parse a document in the same way. Where they give a tree, the dialect without
jumps gives the same one if no list of statements in it has a jump or a label, and else it refuses one
of these. -/
theorem Text.parseWith_dialects (text : Text) (tree : ParseTree) (hnames : tree.PlainNames)
    (hwords : tree.WordedJumps (.ofChars text.chars)) :
    let parse (version : String) := text.parseWith version fun _ => some tree
    (∀ version version', version ≠ "5.1" → version' ≠ "5.1" → parse version = parse version') ∧
    ∀ chunk, parse "5.4" = .ok chunk →
      (chunk.jumps = [] → parse "5.1" = .ok chunk) ∧
      (chunk.jumps ≠ [] → ∃ word, ∃ range ∈ chunk.jumps,
        parse "5.1" = .error (.failure ⟨.jump word, some range.start⟩)) := by
  intro parse
  have hcases : (∃ why, ∀ version, parse version = .error why) ∨
      ∀ version, parse version = tree.lower (.ofChars text.chars) version := by
    simp only [parse, parseWith]
    split
    · exact .inl ⟨_, fun _ => rfl⟩
    · exact .inr fun _ => rfl
  rcases hcases with ⟨why, hparse⟩ | hparse
  · simp [hparse]
  · simp only [hparse]
    refine ⟨fun version version' hv hv' => ParseTree.lower_congr hv hv' tree _, ?_⟩
    intro chunk hchunk
    exact ParseTree.lower_jumpless hnames hwords (by decide) hchunk

def jumping : List Char :=
  "function a.b:c()\n(function()goto d end).e(function()::d::end)end".toList

def jumpingTree : ParseTree := (Lua.parseTree? jumping).get (by decide +kernel)

/-- A jump in the table of a member that is called, and a label in an argument, within a method. -/
theorem Text.parseWith_dialects_jumping :
    Lua.parseTree? jumping = some jumpingTree ∧ jumpingTree.PlainNames ∧
    jumpingTree.WordedJumps (.ofChars (ofChars jumping).chars) ∧
    ∃ chunk, (ofChars jumping).parseWith "5.4" (fun _ => some jumpingTree) = .ok chunk ∧
      (ofChars jumping).parseWith "lua" (fun _ => some jumpingTree) = .ok chunk ∧
      chunk.jumps.map (·.start) = [⟨1, 11⟩, ⟨1, 35⟩] ∧
      ∃ word, ∃ range ∈ chunk.jumps, (ofChars jumping).parseWith "5.1" (fun _ => some jumpingTree) =
        .error (.failure ⟨.jump word, some range.start⟩) := by
  have hchecked : jumpingTree.PlainNames ∧
      jumpingTree.WordedJumps (.ofChars (ofChars jumping).chars) ∧
      ((ofChars jumping).parseWith "5.4" fun _ => some jumpingTree).toOption.map
        (fun chunk => chunk.jumps.map (·.start)) = some [⟨1, 11⟩, ⟨1, 35⟩] := by decide +kernel
  obtain ⟨hnames, hwords, hjumps⟩ := hchecked
  refine ⟨(Option.some_get _).symm, hnames, hwords, ?_⟩
  obtain ⟨hsame, hrefused⟩ := parseWith_dialects (ofChars jumping) jumpingTree hnames hwords
  cases hchunk : (ofChars jumping).parseWith "5.4" fun _ => some jumpingTree with
  | error why =>
    rw [hchunk] at hjumps
    cases hjumps
  | ok chunk =>
    rw [hchunk] at hjumps
    have hstarts : chunk.jumps.map (·.start) = [⟨1, 11⟩, ⟨1, 35⟩] := Option.some.inj hjumps
    have hsome : chunk.jumps ≠ [] := by
      intro hnone
      simp [hnone] at hstarts
    exact ⟨chunk, rfl, (hsame "lua" "5.4" (by decide) (by decide)).trans hchunk, hstarts,
      (hrefused chunk hchunk).2 hsome⟩

end LuaSymbols
