import LuaSymbols.Outline
import LuaSymbols.Proofs.Positions
import Mathlib.Tactic.MkIffOfInductiveProp

namespace LuaSymbols

namespace Span

@[mk_iff]
structure In (cs : List Char) (s : Span) : Prop where
  start : s.start.In cs
  stop : s.stop.In cs
  forward : s.start.offset ≤ s.stop.offset

def Covers (whole part : Span) : Prop :=
  whole.start.offset ≤ part.start.offset ∧ part.stop.offset ≤ whole.stop.offset

def Before (first second : Span) : Prop := first.stop.offset ≤ second.start.offset

@[mk_iff]
structure Lined (whole : Span) (parts : List Span) : Prop where
  within : ∀ part ∈ parts, whole.Covers part
  ordered : parts.Pairwise Before

instance (cs : List Char) (s : Span) : Decidable (s.In cs) :=
  decidable_of_iff' _ (in_iff cs s)

instance (whole part : Span) : Decidable (whole.Covers part) := inferInstanceAs (Decidable (_ ∧ _))

instance (first second : Span) : Decidable (first.Before second) := inferInstanceAs (Decidable (_ ≤ _))

instance (whole : Span) (parts : List Span) : Decidable (whole.Lined parts) :=
  decidable_of_iff' _ (lined_iff whole parts)

variable {whole part : Span} {parts : List Span}

theorem Covers.refl (s : Span) : s.Covers s := ⟨Nat.le_refl _, Nat.le_refl _⟩

theorem Covers.trans {inner : Span} (h : whole.Covers part) (h' : part.Covers inner) :
    whole.Covers inner :=
  ⟨Nat.le_trans h.1 h'.1, Nat.le_trans h'.2 h.2⟩

theorem Lined.nil (whole : Span) : whole.Lined [] := ⟨by simp, .nil⟩

theorem Lined.single (h : whole.Covers part) : whole.Lined [part] := ⟨by simpa using h, by simp⟩

theorem Lined.sublist {fewer : List Span} (h : whole.Lined parts) (hs : fewer.Sublist parts) :
    whole.Lined fewer :=
  ⟨fun p hp => h.within p (hs.subset hp), h.ordered.sublist hs⟩

theorem Lined.widen (h : part.Lined parts) (hcovers : whole.Covers part) : whole.Lined parts :=
  ⟨fun p hp => hcovers.trans (h.within p hp), h.ordered⟩

/-- Parts of parts stand in order again. -/
theorem Lined.flatMap {rows : List (Span × List Span)} (h : whole.Lined (rows.map Prod.fst))
    (hrows : ∀ row ∈ rows, row.1.Lined row.2) : whole.Lined (rows.flatMap Prod.snd) := by
  constructor
  · intro p hp
    obtain ⟨row, hrow, hp⟩ := List.mem_flatMap.mp hp
    exact (h.within _ (List.mem_map_of_mem hrow)).trans ((hrows row hrow).within p hp)
  · refine List.pairwise_flatMap.mpr ⟨fun row hrow => (hrows row hrow).ordered, ?_⟩
    have hordered := List.pairwise_map.mp h.ordered
    refine List.Pairwise.imp_of_mem ?_ hordered
    intro first second hfirst hsecond hbefore p hp q hq
    have hp' := ((hrows first hfirst).within p hp).2
    have hq' := ((hrows second hsecond).within q hq).1
    exact Nat.le_trans hp' (Nat.le_trans hbefore hq')

end Span

namespace ParseTree

mutual

def nodes : ParseTree → List ParseTree
  | .node label children => .node label children :: nodesOf children

def nodesOf : List ParseTree → List ParseTree
  | [] => []
  | t :: rest => nodes t ++ nodesOf rest

end

end ParseTree

namespace Label

def isArguments (l : Label) : Bool := l.field == some "arguments" || l.kind == "arguments"

def isBlock (l : Label) : Bool := l.field == some "consequence" || l.kind == "block"

def isJump (kind : String) : Bool := kind == "goto_statement" || kind == "label_statement"

def isAlternative (l : Label) : Bool := l.field == some "alternative"

def nameThenArguments : List Label → Bool
  | [] => false
  | l :: rest =>
    if l.isArguments then false
    else if l.field == some "name" then rest.any isArguments
    else nameThenArguments rest

/-- What a parser guarantees of a node and its children. -/
@[mk_iff]
structure Formed (cs : List Char) (l : Label) (children : List Label) : Prop where
  place : l.span.In cs
  lined : l.span.Lined (children.map (·.span))
  call : l.kind = "function_call" → nameThenArguments children = true
  blockFirst : l.kind = "if_statement" →
    children.Pairwise fun a b => a.isAlternative = true → b.isBlock = false
  branches : l.kind = "if_statement" → ∀ c ∈ children, c.isAlternative = true →
    c.kind = "elseif_statement" ∨ c.kind = "else_statement"
  field : l.kind = "dot_index_expression" →
    ∀ c ∈ children, c.field = some "field" → c.kind = "identifier"
  method : l.kind = "method_index_expression" →
    ∀ c ∈ children, c.field = some "method" → c.kind = "identifier"

instance (cs : List Char) (l : Label) (children : List Label) : Decidable (l.Formed cs children) :=
  decidable_of_iff' _ (formed_iff cs l children)

def child? (children : List Label) (field : String) : Option Label :=
  children.find? fun c => c.field == some field

def ofKind? (children : List Label) (kind : String) : Option Label :=
  children.find? fun c => c.kind == kind

def argumentsIn? (children : List Label) : Option Label :=
  (child? children "arguments").or (ofKind? children "arguments")

/-- The block in a role; a block without a role will do. -/
def blockIn? (children : List Label) (field : String) : Option Label :=
  (child? children field).or (ofKind? children "block")

/-- What the order of the children has to be like for the parts of a node to stand in order. -/
@[mk_iff]
structure Laid (cs : List Char) (l : Label) (children : List Label) : Prop where
  place : l.span.In cs
  lined : l.span.Lined (children.map (·.span))
  call : l.kind = "function_call" →
    ∃ name ∈ child? children "name", ∃ list ∈ argumentsIn? children, name.span.Before list.span
  branches : l.kind = "if_statement" → ∀ block ∈ blockIn? children "consequence",
    ∀ c ∈ children, c.isAlternative = true → block.span.Before c.span

instance (cs : List Char) (l : Label) (children : List Label) : Decidable (l.Laid cs children) :=
  decidable_of_iff' _ (laid_iff cs l children)

variable {cs : List Char} {l : Label} {children : List Label}

theorem argumentsIn?_isSome (h : children.any isArguments = true) :
    ∃ list, argumentsIn? children = some list := by
  obtain ⟨c, hc, harguments⟩ := List.any_eq_true.mp h
  rw [← Option.isSome_iff_exists, argumentsIn?, Option.isSome_or, Bool.or_eq_true, child?, ofKind?,
    List.find?_isSome, List.find?_isSome]
  rcases Bool.or_eq_true _ _ ▸ harguments with hfield | hkind
  · exact .inl ⟨c, hc, hfield⟩
  · exact .inr ⟨c, hc, hkind⟩

theorem argumentsIn?_mem {list : Label} (h : argumentsIn? children = some list) : list ∈ children := by
  rcases Option.or_eq_some_iff.mp h with h | ⟨_, h⟩ <;> exact List.mem_of_find?_eq_some h

/-- What is called comes first, and its arguments after it. -/
theorem split_call (h : nameThenArguments children = true) :
    ∃ name list, child? children "name" = some name ∧ argumentsIn? children = some list ∧
      [name, list].Sublist children := by
  induction children with
  | nil => simp [nameThenArguments] at h
  | cons c rest ih =>
    simp only [nameThenArguments] at h
    split at h
    · cases h
    rename_i hargs
    simp only [isArguments, Bool.or_eq_true, not_or, Bool.not_eq_true] at hargs
    have hlist : argumentsIn? (c :: rest) = argumentsIn? rest := by
      simp only [argumentsIn?, child?, ofKind?, List.find?_cons, hargs]
    rw [hlist]
    split at h
    · rename_i hname
      obtain ⟨list, hfound⟩ := argumentsIn?_isSome h
      have hmem := argumentsIn?_mem hfound
      refine ⟨c, list, by simp [child?, hname], hfound, ?_⟩
      exact (List.singleton_sublist.mpr hmem).cons_cons c
    · rename_i hname
      obtain ⟨name, list, hfound, hlist, hsub⟩ := ih h
      refine ⟨name, list, ?_, hlist, hsub.cons c⟩
      simpa [child?, hname] using hfound

theorem blockIn?_mem {field : String} {block : Label} (h : blockIn? children field = some block) :
    block ∈ children ∧ (block.field = some field ∨ block.kind = "block") := by
  rcases Option.or_eq_some_iff.mp h with h | ⟨_, h⟩
  · exact ⟨List.mem_of_find?_eq_some h, .inl (by simpa using List.find?_some h)⟩
  · exact ⟨List.mem_of_find?_eq_some h, .inr (by simpa using List.find?_some h)⟩

/-- No later branch stands before the first block, and the block is none of them. -/
theorem Formed.branchesAfter (h : l.Formed cs children) (hkind : l.kind = "if_statement")
    {block : Label} (hblock : blockIn? children "consequence" = some block) {c : Label}
    (hc : c ∈ children) (halt : c.isAlternative = true) : block.span.Before c.span := by
  obtain ⟨hmem, hrole⟩ := blockIn?_mem hblock
  have hisBlock : block.isBlock = true := by
    rcases hrole with hrole | hrole <;> simp [isBlock, hrole]
  obtain ⟨front, rest, rfl⟩ := List.append_of_mem hmem
  have hfirst := h.blockFirst hkind
  have hordered := h.lined.ordered
  rw [List.pairwise_append] at hfirst
  rw [List.map_append, List.map_cons, List.pairwise_append, List.pairwise_cons] at hordered
  rcases List.mem_append.mp hc with hfront | hc
  · have hno := hfirst.2.2 c hfront block List.mem_cons_self halt
    simp [hisBlock] at hno
  · rcases List.mem_cons.mp hc with rfl | hrest
    · have hkinds := h.branches hkind c hmem halt
      rcases hrole with hrole | hrole
      · simp [isAlternative, hrole] at halt
      · simp [hrole] at hkinds
    · exact hordered.2.1.1 _ (List.mem_map_of_mem hrest)

theorem Formed.laid (h : l.Formed cs children) : l.Laid cs children := by
  refine ⟨h.place, h.lined, ?_, ?_⟩
  · intro hkind
    obtain ⟨name, list, hname, hlist, hsub⟩ := split_call (h.call hkind)
    have hordered := (h.lined.sublist (hsub.map (·.span))).ordered
    exact ⟨name, hname, list, hlist, (List.pairwise_cons.mp hordered).1 _ List.mem_cons_self⟩
  · intro hkind block hblock c hc halt
    exact h.branchesAfter hkind hblock hc halt

structure Members (Has : String → Span → Prop) (l : Label) (children : List Label) : Prop where
  field : l.kind = "dot_index_expression" → ∀ c ∈ children, c.field = some "field" →
    Has c.kind c.span → Has "identifier" c.span
  method : l.kind = "method_index_expression" → ∀ c ∈ children, c.field = some "method" →
    Has c.kind c.span → Has "identifier" c.span

/-- The roles of members are filled by names, whatever nodes the tree has elsewhere. -/
theorem Formed.members (h : l.Formed cs children) (Has : String → Span → Prop) :
    l.Members Has children := by
  constructor
  · intro hkind c hc hfield hhas
    exact h.field hkind c hc hfield ▸ hhas
  · intro hkind c hc hfield hhas
    exact h.method hkind c hc hfield ▸ hhas

end Label

namespace ParseTree

/-- Every node of the tree is well formed. -/
def WellFormed (cs : List Char) (t : ParseTree) : Prop :=
  ∀ n ∈ t.nodes, n.label.Formed cs (n.children.map (·.label))

instance (cs : List Char) (t : ParseTree) : Decidable (t.WellFormed cs) :=
  inferInstanceAs (Decidable (∀ n ∈ t.nodes, n.label.Formed cs (n.children.map (·.label))))

def Has (t : ParseTree) (kind : String) (span : Span) : Prop :=
  ∃ n ∈ t.nodes, n.label.kind = kind ∧ n.label.span = span

end ParseTree

namespace Outline

def span : Outline → Span
  | .identifier span | .member _ _ _ span | .call _ _ span | .function _ _ _ span
  | .callStatement _ span | .block _ _ span | .jump _ span | .unsupported _ span => span

/-- The parts of the outline lie in it, those that are walked one after the other, and each is nested
in itself. -/
inductive Nested (cs : List Char) (Has : String → Span → Prop) : Outline → Prop
  | identifier {span : Span} : span.In cs → Has "identifier" span → Nested cs Has (.identifier span)
  | member {base : Outline} {id : Span} {indexer : String} {span : Span} :
      span.In cs → base.Nested cs Has → span.Covers base.span → id.In cs →
      Has "identifier" id → span.Covers id → Nested cs Has (.member base id indexer span)
  | call {base : Outline} {arguments : List Outline} {span : Span} :
      span.In cs → (∀ o ∈ base :: arguments, o.Nested cs Has) →
      span.Lined ((base :: arguments).map Outline.span) → Nested cs Has (.call base arguments span)
  | function {name : Option Outline} {body : List Outline} {isLocal : Bool} {span : Span} :
      span.In cs → (∀ o, name = some o → o.Nested cs Has) →
      (∀ o, name = some o → span.Covers o.span) → (∀ o ∈ body, o.Nested cs Has) →
      span.Lined (body.map Outline.span) → Nested cs Has (.function name body isLocal span)
  | callStatement {expression : Outline} {span : Span} :
      span.In cs → expression.Nested cs Has → span.Covers expression.span →
      Nested cs Has (.callStatement expression span)
  | block {kind : String} {body : List Outline} {span : Span} :
      span.In cs → (∀ o ∈ body, o.Nested cs Has) → span.Lined (body.map Outline.span) →
      Nested cs Has (.block kind body span)
  | jump {kind : String} {span : Span} : span.In cs → Label.isJump kind = true → Has kind span →
      Nested cs Has (.jump kind span)
  | unsupported {kind : String} {span : Span} : span.In cs → Nested cs Has (.unsupported kind span)

structure Row (cs : List Char) (Has : String → Span → Prop) (whole : Span) (os : List Outline) :
    Prop where
  nested : ∀ o ∈ os, o.Nested cs Has
  lined : whole.Lined (os.map Outline.span)

end Outline

structure Reading.Nested (cs : List Char) (Has : String → Span → Prop) (r : Reading) : Prop where
  place : r.label.span.In cs
  has : Has r.label.kind r.label.span
  statement : Outline.Row cs Has r.label.span [r.statement]
  expression : Outline.Row cs Has r.label.span [r.expression]
  statements : Outline.Row cs Has r.label.span r.statements
  expressions : Outline.Row cs Has r.label.span r.expressions
  body : Outline.Row cs Has r.label.span r.body
  consequence : Outline.Row cs Has r.label.span r.consequence

open Outline (Row)

variable {cs : List Char} {Has : String → Span → Prop} {whole : Span} {children : List Reading}

theorem Outline.Row.single {o : Outline} (h : o.Nested cs Has) (hw : whole.Covers o.span) :
    Row cs Has whole [o] :=
  ⟨by simpa using h, .single hw⟩

theorem Outline.Row.head {o : Outline} {os : List Outline} (h : Row cs Has whole (o :: os)) :
    o.Nested cs Has ∧ whole.Covers o.span :=
  ⟨h.nested o List.mem_cons_self, h.lined.within _ List.mem_cons_self⟩

theorem Outline.Row.tail {o : Outline} {os : List Outline} (h : Row cs Has whole (o :: os)) :
    Row cs Has whole os :=
  ⟨fun o' ho' => h.nested o' (List.mem_cons_of_mem _ ho'),
    h.lined.sublist (List.sublist_cons_self _ _)⟩

theorem Outline.Row.widen {part : Span} {os : List Outline} (h : Row cs Has part os)
    (hcovers : whole.Covers part) : Row cs Has whole os :=
  ⟨h.nested, h.lined.widen hcovers⟩

/-- Whatever rows are picked from some children make a row of the parent, if the children stand in
order. -/
theorem Outline.Row.gather (picked : List (Reading × List Outline))
    (hl : whole.Lined (picked.map fun x => x.1.label.span))
    (hrows : ∀ x ∈ picked, Row cs Has x.1.label.span x.2) :
    Row cs Has whole (picked.flatMap Prod.snd) := by
  constructor
  · intro o ho
    obtain ⟨x, hx, ho⟩ := List.mem_flatMap.mp ho
    exact (hrows x hx).nested o ho
  · have hspans : (picked.flatMap Prod.snd).map Outline.span =
        (picked.map fun x => (x.1.label.span, x.2.map Outline.span)).flatMap Prod.snd := by
      rw [List.map_flatMap, List.flatMap_map]
    rw [hspans]
    apply Span.Lined.flatMap
    · simpa [List.map_map, Function.comp_def] using hl
    · intro row hrow
      obtain ⟨x, hx, rfl⟩ := List.mem_map.mp hrow
      exact (hrows x hx).lined

namespace Reading

theorem row_map (hl : whole.Lined (children.map fun c => c.label.span)) {picked : List Reading}
    (hsub : picked.Sublist children) (g : Reading → Outline)
    (hg : ∀ c ∈ children, Row cs Has c.label.span [g c]) : Row cs Has whole (picked.map g) := by
  have hrows : ∀ x ∈ picked.map fun c => (c, [g c]), Row cs Has x.1.label.span x.2 := by
    intro x hx
    obtain ⟨c, hc, rfl⟩ := List.mem_map.mp hx
    exact hg c (hsub.subset hc)
  have hspans := hl.sublist (hsub.map fun c => c.label.span)
  have hrow := Row.gather _ (by simpa [Function.comp_def] using hspans) hrows
  simpa [List.flatMap_map, ← List.map_eq_flatMap] using hrow

theorem row_statementsOf (hl : whole.Lined (children.map fun c => c.label.span))
    (hc : ∀ c ∈ children, c.Nested cs Has) : Row cs Has whole (statementsOf children) :=
  row_map hl (List.filter_sublist.trans List.filter_sublist) _ fun c h => (hc c h).statement

theorem row_expressionsOf (hl : whole.Lined (children.map fun c => c.label.span))
    (hc : ∀ c ∈ children, c.Nested cs Has) : Row cs Has whole (expressionsOf children) :=
  row_map hl (List.filter_sublist.trans List.filter_sublist) _ fun c h => (hc c h).expression

def blockIn? (children : List Reading) (field : String) : Option Reading :=
  (child? children field).or (ofKind? children "block")

theorem bodyIn_eq (children : List Reading) (field : String) :
    bodyIn children field = (blockIn? children field).elim [] (·.statements) := by
  unfold bodyIn blockIn?
  split <;> rename_i h <;> rw [h] <;> rfl

theorem blockIn?_mem {field : String} {block : Reading} (h : blockIn? children field = some block) :
    block ∈ children := by
  rcases Option.or_eq_some_iff.mp h with h | ⟨_, h⟩ <;> exact List.mem_of_find?_eq_some h

/-- The statements of a body lie in the child that holds them, and so in the whole. -/
theorem row_bodyIn (hl : whole.Lined (children.map fun c => c.label.span))
    (hc : ∀ c ∈ children, c.Nested cs Has) (field : String) :
    Row cs Has whole (bodyIn children field) := by
  rw [bodyIn_eq]
  cases hblock : blockIn? children field with
  | none => exact ⟨by simp, .nil _⟩
  | some block =>
    have hmem := blockIn?_mem hblock
    exact (hc block hmem).statements.widen (hl.within _ (List.mem_map_of_mem hmem))

/-- Look-ups among readings and among labels find the same child, so what is guaranteed of the
labels carries over. -/
theorem label_child? (children : List Reading) (field : String) :
    (child? children field).map (·.label) = Label.child? (children.map (·.label)) field := by
  rw [Label.child?, List.find?_map]
  rfl

theorem label_ofKind? (children : List Reading) (kind : String) :
    (ofKind? children kind).map (·.label) = Label.ofKind? (children.map (·.label)) kind := by
  rw [Label.ofKind?, List.find?_map]
  rfl

theorem label_blockIn? (children : List Reading) (field : String) :
    (blockIn? children field).map (·.label) = Label.blockIn? (children.map (·.label)) field := by
  rw [blockIn?, Option.map_or, label_child?, label_ofKind?, Label.blockIn?]

def argumentsIn? (children : List Reading) : Option Reading :=
  (child? children "arguments").or (ofKind? children "arguments")

theorem label_argumentsIn? (children : List Reading) :
    (argumentsIn? children).map (·.label) = Label.argumentsIn? (children.map (·.label)) := by
  rw [argumentsIn?, Option.map_or, label_child?, label_ofKind?, Label.argumentsIn?]

theorem argumentsIn?_mem {list : Reading} (h : argumentsIn? children = some list) :
    list ∈ children := by
  rcases Option.or_eq_some_iff.mp h with h | ⟨_, h⟩ <;> exact List.mem_of_find?_eq_some h

theorem child?_mem {field : String} {c : Reading} (h : child? children field = some c) :
    c ∈ children ∧ c.label.field = some field :=
  ⟨List.mem_of_find?_eq_some h, by simpa using List.find?_some h⟩

/-- The block of a conditional and its later branches make one row. The block is looked up by role
and by kind, so it need not come first among the children; that the branches come after it is the
hypothesis. -/
theorem row_conditional (hl : whole.Lined (children.map fun c => c.label.span))
    (hc : ∀ c ∈ children, c.Nested cs Has)
    (hfirst : ∀ block, blockIn? children "consequence" = some block →
      ∀ c ∈ children, c.label.isAlternative = true → block.label.span.Before c.label.span) :
    Row cs Has whole (bodyIn children "consequence" ++ alternatives children) := by
  -- A later branch keeps its statements in the block of a condition or in its own body.
  let branch (c : Reading) := if c.label.kind == "elseif_statement" then c.consequence else c.body
  have hbranch : ∀ c ∈ children, Row cs Has c.label.span (branch c) := by
    intro c hm
    simp only [branch]
    split
    · exact (hc c hm).consequence
    · exact (hc c hm).body
  let branches := children.filter fun c => c.label.isAlternative
  let later := branches.map fun c => (c, branch c)
  have hlater : later.flatMap Prod.snd = alternatives children := by
    simp only [later, branches, List.flatMap_map]
    rfl
  have hlaterRows : ∀ x ∈ later, Row cs Has x.1.label.span x.2 := by
    intro x hx
    obtain ⟨c, hm, rfl⟩ := List.mem_map.mp hx
    exact hbranch c (List.mem_filter.mp hm).1
  have hspans : later.map (fun x => x.1.label.span) = branches.map fun c => c.label.span := by
    simp [later, Function.comp_def]
  have hlined : whole.Lined (branches.map fun c => c.label.span) :=
    hl.sublist (List.Sublist.map _ List.filter_sublist)
  rw [bodyIn_eq, ← hlater]
  cases hblock : blockIn? children "consequence" with
  | none => exact Row.gather later (hspans ▸ hlined) hlaterRows
  | some block =>
    have hmem := blockIn?_mem hblock
    have hbefore : ∀ span ∈ branches.map (fun c => c.label.span), block.label.span.Before span := by
      intro span hspan
      obtain ⟨c, hm, rfl⟩ := List.mem_map.mp hspan
      obtain ⟨hm, halt⟩ := List.mem_filter.mp hm
      exact hfirst block hblock c hm halt
    -- With the block in front the branches are still in order, wherever the block was found.
    have hall : whole.Lined (block.label.span :: branches.map fun c => c.label.span) := by
      constructor
      · intro span hspan
        rcases List.mem_cons.mp hspan with rfl | hspan
        · exact hl.within _ (List.mem_map_of_mem hmem)
        · exact hlined.within span hspan
      · exact List.pairwise_cons.mpr ⟨hbefore, hlined.ordered⟩
    apply Row.gather ((block, block.statements) :: later)
    · rw [List.map_cons, hspans]
      exact hall
    · intro x hx
      rcases List.mem_cons.mp hx with rfl | hx
      · exact (hc block hmem).statements
      · exact hlaterRows x hx

/-- The callee and the arguments lie in the call one after the other, although the node lists them
by role. -/
theorem nested_callOf {label : Label} (hf : label.Laid cs (children.map (·.label)))
    (hl : label.span.Lined (children.map fun c => c.label.span))
    (hc : ∀ c ∈ children, c.Nested cs Has) (hkind : label.kind = "function_call") :
    (callOf label children).Nested cs Has := by
  obtain ⟨_, hcalled, _, hgiven, hbefore⟩ := hf.call hkind
  rw [Option.mem_def, ← label_child?] at hcalled
  rw [Option.mem_def, ← label_argumentsIn?] at hgiven
  obtain ⟨name, hname, rfl⟩ := Option.map_eq_some_iff.mp hcalled
  obtain ⟨list, hlist, rfl⟩ := Option.map_eq_some_iff.mp hgiven
  have hmem := (child?_mem hname).1
  have hmem' := argumentsIn?_mem hlist
  let picked := [(name, [name.expression]), (list, list.expressions)]
  have hlined : label.span.Lined (picked.map fun x => x.1.label.span) := by
    constructor
    · have hin := hl.within _ (List.mem_map_of_mem hmem)
      have hin' := hl.within _ (List.mem_map_of_mem hmem')
      simpa [picked] using ⟨hin, hin'⟩
    · simpa [picked] using hbefore
  have hrows : ∀ x ∈ picked, Row cs Has x.1.label.span x.2 := by
    simpa [picked] using ⟨(hc name hmem).expression, (hc list hmem').expressions⟩
  have hrow := Row.gather picked hlined hrows
  simp only [picked, List.flatMap_cons, List.flatMap_nil, List.append_nil, List.singleton_append]
    at hrow
  rw [argumentsIn?] at hlist
  simp only [callOf, hname, hlist, Option.some_or]
  exact .call hf.place hrow.nested hrow.lined

/-- The place of the name is inside the member, and so is the chain in front of it. -/
theorem nested_memberOf {label : Label} (hplace : label.span.In cs)
    (hl : label.span.Lined (children.map fun c => c.label.span))
    (hc : ∀ c ∈ children, c.Nested cs Has) {field : String} (indexer : String)
    (hname : ∀ c ∈ children.map (·.label), c.field = some field → Has c.kind c.span →
      Has "identifier" c.span) :
    (memberOf label children field indexer).Nested cs Has ∧
      label.span.Covers (memberOf label children field indexer).span := by
  unfold memberOf
  split
  · rename_i table id htable hid
    have hcovers : ∀ c ∈ children, label.span.Covers c.label.span :=
      fun c hm => hl.within _ (List.mem_map_of_mem hm)
    obtain ⟨hmem, _⟩ := child?_mem htable
    obtain ⟨hmem', hfield⟩ := child?_mem hid
    obtain ⟨hbase, hbaseIn⟩ := (hc table hmem).expression.head
    have hhas := hname _ (List.mem_map_of_mem hmem') hfield (hc id hmem').has
    refine ⟨?_, .refl _⟩
    exact .member hplace hbase ((hcovers table hmem).trans hbaseIn) (hc id hmem').place hhas
      (hcovers id hmem')
  · exact ⟨.unsupported hplace, .refl _⟩

variable {label : Label}

/-- A function holds its name and its body. Without either it is empty, which still nests. -/
theorem nested_functionOf (hplace : label.span.In cs)
    (hl : label.span.Lined (children.map fun c => c.label.span))
    (hc : ∀ c ∈ children, c.Nested cs Has) : (functionOf label children).Nested cs Has := by
  have hname : ∀ o, (child? children "name").map (·.expression) = some o →
      o.Nested cs Has ∧ label.span.Covers o.span := by
    intro o ho
    obtain ⟨c, hfound, rfl⟩ := Option.map_eq_some_iff.mp ho
    have hmem := (child?_mem hfound).1
    obtain ⟨hnested, hcovers⟩ := (hc c hmem).expression.head
    exact ⟨hnested, (hl.within _ (List.mem_map_of_mem hmem)).trans hcovers⟩
  have hbody := row_bodyIn hl hc "body"
  exact .function hplace (fun o ho => (hname o ho).1) (fun o ho => (hname o ho).2) hbody.nested
    hbody.lined

/-- One case for each kind of statement. A statement of no known kind has no parts. -/
theorem nested_statementOf (hf : label.Laid cs (children.map (·.label)))
    (hhas : Has label.kind label.span)
    (hl : label.span.Lined (children.map fun c => c.label.span))
    (hc : ∀ c ∈ children, c.Nested cs Has) :
    (statementOf label children).Nested cs Has ∧
      label.span.Covers (statementOf label children).span := by
  unfold statementOf
  split
  · exact ⟨nested_functionOf hf.place hl hc, .refl _⟩
  · exact ⟨nested_functionOf hf.place hl hc, .refl _⟩
  · rename_i hkind
    exact ⟨.callStatement hf.place (nested_callOf hf hl hc hkind) (.refl _), .refl _⟩
  iterate 4
    · have hbody := row_bodyIn hl hc "body"
      exact ⟨.block hf.place hbody.nested hbody.lined, .refl _⟩
  · rename_i hkind
    have hfirst : ∀ block, blockIn? children "consequence" = some block →
        ∀ c ∈ children, c.label.isAlternative = true → block.label.span.Before c.label.span := by
      intro block hblock c hm halt
      have hlabel : Label.blockIn? (children.map (·.label)) "consequence" = some block.label := by
        rw [← label_blockIn?, hblock]
        rfl
      exact hf.branches hkind _ hlabel _ (List.mem_map_of_mem hm) halt
    have hbody := row_conditional hl hc hfirst
    exact ⟨.block hf.place hbody.nested hbody.lined, .refl _⟩
  iterate 2
    · rename_i hkind
      exact ⟨.jump hf.place (by rw [hkind]; rfl) hhas, .refl _⟩
  · exact ⟨.unsupported hf.place, .refl _⟩

/-- One case for each kind of expression. Parentheses give way to what they hold, which is why the
node only covers the result. -/
theorem nested_expressionOf (hf : label.Laid cs (children.map (·.label)))
    (hm : label.Members Has (children.map (·.label))) (hhas : Has label.kind label.span)
    (hl : label.span.Lined (children.map fun c => c.label.span))
    (hc : ∀ c ∈ children, c.Nested cs Has) :
    (expressionOf label children).Nested cs Has ∧
      label.span.Covers (expressionOf label children).span := by
  unfold expressionOf
  split
  · rename_i hkind
    exact ⟨.identifier hf.place (hkind ▸ hhas), .refl _⟩
  · rename_i hkind
    exact ⟨nested_callOf hf hl hc hkind, .refl _⟩
  · rename_i hkind
    exact nested_memberOf hf.place hl hc "." (hm.field hkind)
  · rename_i hkind
    exact nested_memberOf hf.place hl hc ":" (hm.method hkind)
  · have hbody := row_bodyIn hl hc "body"
    exact ⟨.function hf.place (fun o ho => nomatch ho) (fun o ho => nomatch ho) hbody.nested
      hbody.lined, .refl _⟩
  · split
    · rename_i inner hinner
      have hrow := row_expressionsOf hl hc
      rw [hinner] at hrow
      exact hrow.head
    · exact ⟨.unsupported hf.place, .refl _⟩
  · exact ⟨.unsupported hf.place, .refl _⟩

/-- The step of the induction: all readings of a node nest if those of its children do. -/
theorem nested_ofNode (hf : label.Laid cs (children.map (·.label)))
    (hm : label.Members Has (children.map (·.label))) (hhas : Has label.kind label.span)
    (hc : ∀ c ∈ children, c.Nested cs Has) : (ofNode label children).Nested cs Has := by
  have hl : label.span.Lined (children.map fun c => c.label.span) := by
    simpa [Function.comp_def] using hf.lined
  obtain ⟨hstatement, hin⟩ := nested_statementOf hf hhas hl hc
  obtain ⟨hexpression, hin'⟩ := nested_expressionOf hf hm hhas hl hc
  exact {
    place := hf.place
    has := hhas
    statement := .single hstatement hin
    expression := .single hexpression hin'
    statements := row_statementsOf hl hc
    expressions := row_expressionsOf hl hc
    body := row_bodyIn hl hc "body"
    consequence := row_bodyIn hl hc "consequence" }

end Reading

namespace ParseTree

theorem label_reading (t : ParseTree) : t.reading.label = t.label := by
  cases t
  simp [reading, Reading.ofNode, label]

theorem readings_eq_map (ts : List ParseTree) : readings ts = ts.map reading := by
  induction ts with
  | nil => rfl
  | cons t ts ih => simp [readings, ih]

theorem labels_readings (ts : List ParseTree) : (readings ts).map (·.label) = ts.map label := by
  simp [readings_eq_map, label_reading]

mutual

/-- With the next theorem by induction over the tree. -/
theorem reading_nested (t : ParseTree)
    (hf : ∀ n ∈ t.nodes, n.label.Laid cs (n.children.map (·.label)))
    (hm : ∀ n ∈ t.nodes, n.label.Members Has (n.children.map (·.label)))
    (hhas : ∀ n ∈ t.nodes, Has n.label.kind n.label.span) : t.reading.Nested cs Has := by
  match t with
  | .node label children =>
    simp only [nodes, List.mem_cons, forall_eq_or_imp] at hf hm hhas
    simp only [reading]
    apply Reading.nested_ofNode
    · rw [labels_readings]
      exact hf.1
    · rw [labels_readings]
      exact hm.1
    · exact hhas.1
    · exact readings_nested children hf.2 hm.2 hhas.2

theorem readings_nested (ts : List ParseTree)
    (hf : ∀ n ∈ nodesOf ts, n.label.Laid cs (n.children.map (·.label)))
    (hm : ∀ n ∈ nodesOf ts, n.label.Members Has (n.children.map (·.label)))
    (hhas : ∀ n ∈ nodesOf ts, Has n.label.kind n.label.span) :
    ∀ r ∈ readings ts, r.Nested cs Has := by
  match ts with
  | [] => simp [readings]
  | t :: rest =>
    simp only [nodesOf, List.mem_append] at hf hm hhas
    intro r hr
    rcases List.mem_cons.mp hr with rfl | hr
    · exact reading_nested t (fun n h => hf n (.inl h)) (fun n h => hm n (.inl h))
        (fun n h => hhas n (.inl h))
    · exact readings_nested rest (fun n h => hf n (.inr h)) (fun n h => hm n (.inr h))
        (fun n h => hhas n (.inr h)) r hr

end

/-- The statements of a document are nested and stand one after the other. -/
theorem row_outline {t : ParseTree} (hf : ∀ n ∈ t.nodes, n.label.Laid cs (n.children.map (·.label)))
    (hm : ∀ n ∈ t.nodes, n.label.Members Has (n.children.map (·.label)))
    (hhas : ∀ n ∈ t.nodes, Has n.label.kind n.label.span) : Row cs Has t.label.span t.outline := by
  have h := (reading_nested t hf hm hhas).statements
  rwa [label_reading] at h

theorem outline_row {t : ParseTree} (hf : t.WellFormed cs) :
    Row cs t.Has t.label.span t.outline :=
  row_outline (fun n hn => (hf n hn).laid) (fun n hn => (hf n hn).members t.Has)
    fun n hn => ⟨n, hn, rfl, rfl⟩

end ParseTree

end LuaSymbols
