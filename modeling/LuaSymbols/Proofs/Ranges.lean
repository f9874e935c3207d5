import LuaSymbols.Proofs.Cursor
import LuaSymbols.Proofs.Resolution

namespace LuaSymbols

namespace Range

def Covers (whole part : Range) : Prop := whole.start ≤ part.start ∧ part.stop ≤ whole.stop

def Before (first second : Range) : Prop := first.stop ≤ second.start

variable {a b c : Range}

theorem Covers.refl (r : Range) : r.Covers r := ⟨r.start.le_refl, r.stop.le_refl⟩

theorem Covers.trans (h : a.Covers b) (h' : b.Covers c) : a.Covers c :=
  ⟨Position.le_trans h.1 h'.1, Position.le_trans h'.2 h.2⟩

/-- What lies in the earlier of two ranges stands before what lies in the later one. -/
theorem Before.inner {a' b' : Range} (h : a.Before b) (ha : a.Covers a') (hb : b.Covers b') :
    a'.Before b' :=
  Position.le_trans ha.2 (Position.le_trans h hb.1)

/-- In document order, the outer of two nested ranges first. -/
def Follows (a b : Range) : Prop := a.start ≤ b.start ∧ (a.Covers b ∨ a.Before b)

theorem Covers.follows (h : a.Covers b) : a.Follows b := ⟨h.1, .inl h⟩

theorem Before.follows (h : a.Before b) : a.Follows b :=
  ⟨Position.le_trans a.start_le_stop h, .inr h⟩

end Range

namespace Node

/-- The parts of the node lie in it, and those that are walked stand one after the other. -/
structure Tidy (node : Node) : Prop where
  within : ∀ part ∈ node.parts, ∃ r, part.range? = some r ∧
    ∀ whole, node.range? = some whole → whole.Covers r
  ordered : (node.walked.filterMap range?).Pairwise Range.Before

def Nested (tree : Node) : Prop := ∀ node ∈ tree.nodes, node.Tidy

/-- Being nested goes down one level at a time, which is the form that inductions use. -/
theorem nested_iff {node : Node} : node.Nested ↔ node.Tidy ∧ ∀ part ∈ node.parts, part.Nested := by
  simp only [Nested]
  rw [nodes_eq, List.forall_mem_cons]
  refine and_congr_right fun _ => ⟨?_, ?_⟩
  · intro h part hp n hn
    exact h n (List.mem_flatMap.mpr ⟨part, hp, hn⟩)
  · intro h n hn
    obtain ⟨part, hp, hn⟩ := List.mem_flatMap.mp hn
    exact h part hp n hn

theorem Nested.nodes_within {node : Node} (h : node.Nested) {whole : Range}
    (hr : node.range? = some whole) : ∀ n ∈ node.nodes, ∃ r, n.range? = some r ∧ whole.Covers r := by
  induction node using parts_induction generalizing whole with
  | h node ih =>
    obtain ⟨htidy, hparts⟩ := nested_iff.mp h
    intro n hn
    rw [nodes_eq] at hn
    rcases List.mem_cons.mp hn with rfl | hn
    · exact ⟨whole, hr, .refl whole⟩
    · obtain ⟨part, hp, hn⟩ := List.mem_flatMap.mp hn
      obtain ⟨inner, hinner, hcovers⟩ := htidy.within part hp
      obtain ⟨r, hr', hcovers'⟩ := ih part hp (hparts part hp) hinner n hn
      exact ⟨r, hr', (hcovers whole hr).trans hcovers'⟩

theorem Nested.visible_within {node : Node} (h : node.Nested) {whole : Range}
    (hr : node.range? = some whole) :
    ∀ n ∈ node.visible, ∃ r, n.range? = some r ∧ whole.Covers r :=
  fun n hn => h.nodes_within hr n (node.visible_subset_nodes hn)

/-- A walk meets the ranges of a nested tree in document order. -/
theorem Nested.visible_follows {node : Node} (h : node.Nested) :
    (node.visible.filterMap range?).Pairwise Range.Follows := by
  induction node using parts_induction with
  | h node ih =>
    obtain ⟨htidy, hparts⟩ := nested_iff.mp h
    rw [List.pairwise_filterMap, visible_eq, List.pairwise_cons]
    refine ⟨?_, List.pairwise_flatMap.mpr ⟨?_, ?_⟩⟩
    · -- The node itself covers all below it.
      intro n hn whole hwhole r hr
      have hn' : n ∈ node.visible := by
        rw [visible_eq]
        exact List.mem_cons_of_mem _ hn
      obtain ⟨r', hr', hcovers⟩ := h.visible_within hwhole n hn'
      obtain rfl := Option.some.inj (hr.symm.trans hr')
      exact hcovers.follows
    · intro part hp
      have hpart := node.walked_subset_parts hp
      exact List.pairwise_filterMap.mp (ih part hpart (hparts part hpart))
    · -- Whatever lies in two parts is as far apart as these are.
      refine (List.pairwise_filterMap.mp htidy.ordered).imp_of_mem ?_
      intro first second hfirst hsecond hbefore m hm n hn a ha b hb
      have hfirst' := node.walked_subset_parts hfirst
      have hsecond' := node.walked_subset_parts hsecond
      obtain ⟨outer, houter, _⟩ := htidy.within first hfirst'
      obtain ⟨outer', houter', _⟩ := htidy.within second hsecond'
      obtain ⟨a', ha', hcovers⟩ := (hparts first hfirst').visible_within houter m hm
      obtain ⟨b', hb', hcovers'⟩ := (hparts second hsecond').visible_within houter' n hn
      obtain rfl := Option.some.inj (ha.symm.trans ha')
      obtain rfl := Option.some.inj (hb.symm.trans hb')
      exact ((hbefore outer houter outer' houter').inner hcovers hcovers').follows

theorem range?_of_declaration {node : Node} {container : String} {symbol : Symbol}
    (h : node.declaration? container = some symbol) : node.range? = some symbol.range := by
  cases node with
  | function name body isLocal range =>
    obtain ⟨declared, _, rfl⟩ := Option.map_eq_some_iff.mp h
    rfl
  | _ => cases h

/-- The declarations are ranges of visited nodes, picked out in the order of the visits. -/
theorem Nested.symbols_follow {node : Node} (h : node.Nested) {container : String} {found : Findings}
    (hw : node.walk container = .ok found) :
    found.symbols.toList.Pairwise fun a b => a.range.Follows b.range := by
  rw [(walk_findings hw).2, List.pairwise_filterMap]
  refine (List.pairwise_filterMap.mp h.visible_follows).imp ?_
  intro m n hfollows a ha b hb
  exact hfollows _ (range?_of_declaration ha) _ (range?_of_declaration hb)

end Node

namespace Outline

variable {cs : List Char} {Has : String → Span → Prop} {version : String}

/-- A span in a span becomes a range in a range: positions go up with byte offsets. -/
theorem place_covers {whole part : Span} {range inner : Range} (hw : whole.In cs) (hp : part.In cs)
    (h : whole.Covers part) (hr : place (.ofChars cs) whole = .ok range)
    (hr' : place (.ofChars cs) part = .ok inner) : range.Covers inner := by
  obtain ⟨hstart, hstop⟩ := place_bounds hr
  obtain ⟨hstart', hstop'⟩ := place_bounds hr'
  rw [Range.Covers, hstart, hstop, hstart', hstop']
  exact ⟨Source.position_le hw.start hp.start h.1, Source.position_le hp.stop hw.stop h.2⟩

theorem place_before {first second : Span} {range range' : Range} (hf : first.In cs)
    (hs : second.In cs) (h : first.Before second) (hr : place (.ofChars cs) first = .ok range)
    (hr' : place (.ofChars cs) second = .ok range') : range.Before range' := by
  rw [Range.Before, (place_bounds hr).2, (place_bounds hr').1]
  exact Source.position_le hf.stop hs.start h

theorem Nested.in {o : Outline} (h : o.Nested cs Has) : o.span.In cs := by
  cases h <;> assumption

theorem Nested.part {o part : Outline} (h : o.Nested cs Has) (hp : part ∈ o.parts) :
    part.Nested cs Has ∧ o.span.Covers part.span := by
  cases h with
  | member _ hbase hcovers hid hname hcovers' =>
    rcases List.mem_cons.mp hp with rfl | hp
    · exact ⟨hbase, hcovers⟩
    · obtain rfl := List.mem_singleton.mp hp
      exact ⟨.identifier hid hname, hcovers'⟩
  | call _ hall hl => exact ⟨hall part hp, hl.within _ (List.mem_map_of_mem hp)⟩
  | function _ hname hcovers hbody hl =>
    rcases List.mem_append.mp hp with hp | hp
    · have hsome := Option.mem_toList.mp hp
      exact ⟨hname part hsome, hcovers part hsome⟩
    · exact ⟨hbody part hp, hl.within _ (List.mem_map_of_mem hp)⟩
  | callStatement _ hexpression hcovers =>
    obtain rfl := List.mem_singleton.mp hp
    exact ⟨hexpression, hcovers⟩
  | block _ hbody hl => exact ⟨hbody part hp, hl.within _ (List.mem_map_of_mem hp)⟩
  | identifier _ _ | jump _ _ _ | unsupported _ => cases hp

theorem Nested.row {o : Outline} (h : o.Nested cs Has) : Row cs Has o.span o.walked := by
  cases h with
  | call _ hall hl => exact ⟨hall, hl⟩
  | function _ _ _ hbody hl => exact ⟨hbody, hl⟩
  | callStatement _ hexpression hcovers => exact .single hexpression hcovers
  | block _ hbody hl => exact ⟨hbody, hl⟩
  | identifier _ _ | member _ _ _ _ _ _ | jump _ _ _ | unsupported _ => exact ⟨by simp [walked], .nil _⟩

/-- Nodes whose outlines stand one after the other do so too. -/
theorem Row.ordered {whole : Span} {os : List Outline} {nodes : List Node} (h : Row cs Has whole os)
    (hr : resolveAll (.ofChars cs) version os = .ok nodes) :
    (nodes.filterMap Node.range?).Pairwise Range.Before := by
  rw [resolveAll_eq_filterMap hr, List.pairwise_filterMap, List.pairwise_filterMap]
  refine (List.pairwise_map.mp h.lined.ordered).imp_of_mem ?_
  intro first second hfirst hsecond hbefore m hm n hn a ha b hb
  obtain ⟨a', ha', hplace⟩ := (resolve_resolves (toOption_eq_some.mp hm)).placed
  obtain ⟨b', hb', hplace'⟩ := (resolve_resolves (toOption_eq_some.mp hn)).placed
  obtain rfl := Option.some.inj (ha.symm.trans ha')
  obtain rfl := Option.some.inj (hb.symm.trans hb')
  exact place_before (h.nested first hfirst).in (h.nested second hsecond).in hbefore hplace hplace'

/-- By induction over the node: its range covers its parts by the spans, and those the walk reaches
are in order. -/
theorem Nested.resolve_nested {o : Outline} {node : Node} (h : o.Nested cs Has)
    (hr : resolve (.ofChars cs) version o = .ok node) : node.Nested := by
  induction node using Node.parts_induction generalizing o with
  | h node ih =>
    have hnode := resolve_resolves hr
    obtain ⟨range, hrange, hplace⟩ := hnode.placed
    refine Node.nested_iff.mpr ⟨⟨?_, h.row.ordered hnode.walked⟩, ?_⟩
    · intro part hp
      obtain ⟨p, hp, hpart⟩ := hnode.parts part hp
      obtain ⟨hnested, hcovers⟩ := h.part hp
      obtain ⟨inner, hinner, hplace'⟩ := (resolve_resolves hpart).placed
      refine ⟨inner, hinner, ?_⟩
      intro whole hwhole
      obtain rfl := Option.some.inj (hrange.symm.trans hwhole)
      exact place_covers h.in hnested.in hcovers hplace hplace'
    · intro part hp
      obtain ⟨p, hp', hpart⟩ := hnode.parts part hp
      exact ih part hp (h.part hp').1 hpart

/-- The chunk has no range of its own, so only the order of the statements is left. -/
theorem Row.chunk_nested {whole : Span} {os : List Outline} {body : List Node}
    (h : Row cs Has whole os) (hr : resolveAll (.ofChars cs) version os = .ok body) :
    (Node.chunk body).Nested := by
  refine Node.nested_iff.mpr ⟨⟨?_, h.ordered hr⟩, ?_⟩
  · intro part hp
    obtain ⟨o, _, hpart⟩ := mem_resolveAll hr hp
    obtain ⟨r, hr', _⟩ := (resolve_resolves hpart).placed
    exact ⟨r, hr', nofun⟩
  · intro part hp
    obtain ⟨o, ho, hpart⟩ := mem_resolveAll hr hp
    exact (h.nested o ho).resolve_nested hpart

end Outline

namespace ParseTree

variable {cs : List Char} {t : ParseTree} {version : String}

/-- Every node of the tree is laid out in the order that its parts are read in. -/
def LaidOut (cs : List Char) (t : ParseTree) : Prop :=
  ∀ n ∈ t.nodes, n.label.Laid cs (n.children.map (·.label))

instance (cs : List Char) (t : ParseTree) : Decidable (t.LaidOut cs) :=
  inferInstanceAs (Decidable (∀ n ∈ t.nodes, n.label.Laid cs (n.children.map (·.label))))

-- Where a name is expected anything may stand: the order of the parts does not depend on it.
/-- What stands in the role of a member is taken for a name here, since no claim about names is
made. -/
theorem LaidOut.row (h : t.LaidOut cs) :
    Outline.Row cs (fun kind span => kind = "identifier" ∨ t.Has kind span) t.label.span t.outline := by
  apply row_outline h
  · intro n hn
    exact ⟨fun _ _ _ _ _ => .inl rfl, fun _ _ _ _ _ => .inl rfl⟩
  · intro n hn
    exact .inr ⟨n, hn, rfl, rfl⟩

/-- A tree that is laid out has all its ranges, so a jump in the old dialect is all that can go
wrong. -/
theorem LaidOut.lower_error (h : t.LaidOut cs) (herror : t.label.faulty = false) {why : ParseError}
    (he : t.lower (.ofChars cs) version = .error why) :
    version = jumplessVersion ∧ ∃ n ∈ t.nodes, Label.isJump n.label.kind = true ∧
      why = Outline.refuseJump (.ofChars cs) n.label.span := by
  simp only [lower, herror, Bool.false_eq_true, ↓reduceIte] at he
  rcases error_of_bind he with he | ⟨body, _, he⟩
  · obtain ⟨o, ho, he⟩ := Outline.resolveAll_error he
    obtain ⟨hv, kind, span, hjump, hhas, rfl⟩ := (h.row.nested o ho).resolve_error he
    rcases hhas with rfl | ⟨n, hn, rfl, rfl⟩
    · cases hjump
    · exact ⟨hv, n, hn, hjump, rfl⟩
  · cases he

end ParseTree

theorem Outline.refuseJump_ne_inverted (src : Source) (span : Span) (start stop : Position) :
    refuseJump src span ≠ .fault (.invertedRange start stop) := by
  unfold refuseJump
  split <;> exact nofun

/-- The ranges of a document nest if its parse tree is laid out in order. No range is refused; only a
jump in a dialect without jumps is. Every node covers its parts, statements stand one after the other,
and declarations come in document order, any two of them nested or apart. -/
theorem ParseTree.lower_nested (cs : List Char) (version : String) (tree : ParseTree)
    (herror : tree.label.faulty = false) (hl : tree.LaidOut cs) :
    let lowered := tree.lower (.ofChars cs) version
    (∀ start stop, lowered ≠ .error (.fault (.invertedRange start stop))) ∧
    (∀ why, lowered = .error why → version = jumplessVersion ∧ ∃ n ∈ tree.nodes,
      Label.isJump n.label.kind = true ∧ why = Outline.refuseJump (.ofChars cs) n.label.span) ∧
    ∀ chunk, lowered = .ok chunk → chunk.Nested ∧ ∀ container, ∃ found,
      chunk.walk container = .ok found ∧ found.symbols.toList.Pairwise fun a b =>
        a.range.start ≤ b.range.start ∧ (a.range.Covers b.range ∨ a.range.Before b.range) := by
  intro lowered
  refine ⟨?_, ?_, ?_⟩
  · intro start stop he
    obtain ⟨_, n, _, _, hwhy⟩ := hl.lower_error herror he
    exact Outline.refuseJump_ne_inverted _ _ start stop hwhy.symm
  · intro why he
    exact hl.lower_error herror he
  · intro chunk hchunk
    obtain ⟨body, rfl, hbody⟩ := lower_body herror hchunk
    have hnested := hl.row.chunk_nested hbody
    refine ⟨hnested, ?_⟩
    intro container
    obtain ⟨found, hwalk, _⟩ := walk_lower herror hchunk container
    exact ⟨found, hwalk, hnested.symbols_follow hwalk⟩

/-- A declaration within another, and in a later branch one in an argument behind a wide character. -/
def enclosing : List Char :=
  "if a then function f()function g()end end\nelse(b)('é',function()function h()end end)end".toList

def enclosingTree : ParseTree := (Lua.parseTree? enclosing).get (by decide +kernel)

def enclosingSymbols : List (String × Position × Position) :=
  [("f", ⟨0, 10⟩, ⟨0, 41⟩), ("g", ⟨0, 22⟩, ⟨0, 37⟩), ("h", ⟨1, 22⟩, ⟨1, 37⟩)]

/-- Functions within functions, and one after the other. -/
theorem ParseTree.lower_nested_enclosing :
    Lua.parseTree? enclosing = some enclosingTree ∧ enclosingTree.label.faulty = false ∧
    enclosingTree.LaidOut enclosing ∧
    ∃ chunk found, enclosingTree.lower (.ofChars enclosing) "5.4" = .ok chunk ∧ chunk.Nested ∧
      chunk.walk "a" = .ok found ∧
      found.symbols.toList.map (fun s => (s.name, s.range.start, s.range.stop)) = enclosingSymbols ∧
      found.symbols.toList.Pairwise fun a b =>
        a.range.start ≤ b.range.start ∧ (a.range.Covers b.range ∨ a.range.Before b.range) := by
  have hchecked : enclosingTree.label.faulty = false ∧ enclosingTree.LaidOut enclosing ∧
      ((enclosingTree.lower (.ofChars enclosing) "5.4").toOption.bind fun chunk =>
        (chunk.walk "a").toOption).map (fun found =>
          found.symbols.toList.map fun s => (s.name, s.range.start, s.range.stop)) =
        some enclosingSymbols := by decide +kernel
  obtain ⟨herror, hl, hfound⟩ := hchecked
  refine ⟨(Option.some_get _).symm, herror, hl, ?_⟩
  obtain ⟨_, hjump, hnested⟩ := lower_nested enclosing "5.4" enclosingTree herror hl
  cases hchunk : enclosingTree.lower (.ofChars enclosing) "5.4" with
  | error why => exact absurd (hjump why hchunk).1 (by decide)
  | ok chunk =>
    obtain ⟨hall, hwalks⟩ := hnested chunk hchunk
    obtain ⟨found, hwalk, hordered⟩ := hwalks "a"
    rw [hchunk, Except.toOption, Option.bind_some, hwalk] at hfound
    exact ⟨chunk, found, rfl, hall, hwalk, Option.some.inj hfound, hordered⟩

end LuaSymbols
