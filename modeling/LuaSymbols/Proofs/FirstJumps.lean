import LuaSymbols.Proofs.Dialects
import LuaSymbols.Proofs.Names
import LuaSymbols.Proofs.Ranges

namespace LuaSymbols

theorem error_of_map {ε α β : Type} {x : Except ε α} {f : α → β} {why : ε}
    (h : x.map f = .error why) : x = .error why := by
  cases x with
  | error why' =>
    cases h
    rfl
  | ok a => cases h

theorem Position.le_total (p q : Position) : p ≤ q ∨ q ≤ p := by
  simp only [Position.le_def]
  omega

theorem Position.lt_of_lt_of_le {p q r : Position} (hpq : p < q) (hqr : q ≤ r) : p < r := by
  simp only [Position.lt_def, Position.le_def] at *
  omega

theorem Range.Before.start_lt {a b : Range} (h : a.Before b) (ha : a.start < a.stop) :
    a.start < b.start :=
  Position.lt_of_lt_of_le ha h

namespace Node

/-- Some call has the earlier jump in what is called and the later one in an argument, so that the later
one is met first. -/
def Overtakes (tree : Node) (later earlier : Range) : Prop :=
  ∃ base arguments range, call base arguments range ∈ tree.nodes ∧ earlier ∈ base.jumps ∧
    ∃ argument ∈ arguments, later ∈ argument.jumps

/-- No jump or label of the tree stands before this one. -/
def IsFirstJump (tree : Node) (r : Range) : Prop :=
  r ∈ tree.jumps ∧ ∀ r' ∈ tree.jumps, r.start ≤ r'.start

theorem Overtakes.of_part {tree part : Node} {later earlier : Range} (hp : part ∈ tree.parts)
    (h : part.Overtakes later earlier) : tree.Overtakes later earlier := by
  obtain ⟨base, arguments, range, hcall, h⟩ := h
  exact ⟨base, arguments, range, mem_nodes_of_part hp hcall, h⟩

theorem statements_subset_parts (node : Node) : node.statements ⊆ node.parts := by
  cases node <;> simp [statements, parts]

theorem range?_of_jump {node : Node} {r : Range} (h : node.jump? = some r) : node.range? = some r := by
  cases node with
  | unsupported kind range =>
    simp only [jump?] at h
    split at h
    · exact h
    · cases h
  | _ => cases h

theorem Nested.jumps_within {node : Node} (h : node.Nested) {whole : Range}
    (hr : node.range? = some whole) : ∀ r ∈ node.jumps, whole.Covers r := by
  intro r hjump
  obtain ⟨s, hs, hsr⟩ := List.mem_filterMap.mp hjump
  obtain ⟨n, hn, hs⟩ := List.mem_flatMap.mp hs
  obtain ⟨inner, hinner, hcovers⟩ := h.nodes_within hr n hn
  obtain ⟨r', hr', hcovers'⟩ := (h n hn).within s (n.statements_subset_parts hs)
  obtain rfl := Option.some.inj ((range?_of_jump hsr).symm.trans hr')
  exact hcovers.trans (hcovers' inner hinner)

theorem Shows.within {role : Outline.Role} {node : Node} {r whole : Range} (h : node.Shows role r)
    (hn : node.Nested) (hr : node.range? = some whole) : whole.Covers r := by
  rcases h with ⟨_, hjump⟩ | hjumps
  · obtain rfl := Option.some.inj (hr.symm.trans (range?_of_jump hjump))
    exact .refl _
  · exact hn.jumps_within hr r hjumps

/-- The jump that is overtaken stands first. -/
theorem Nested.before_of_overtakes {tree : Node} (h : tree.Nested) {later earlier : Range}
    (ho : tree.Overtakes later earlier) : earlier.Before later := by
  obtain ⟨base, arguments, range, hcall, hearlier, argument, hargument, hlater⟩ := ho
  have hnested : (call base arguments range).Nested := fun n hn => h n (nodes_trans hcall hn)
  obtain ⟨htidy, hparts⟩ := nested_iff.mp hnested
  have hbase : base ∈ (call base arguments range).parts := List.mem_cons_self
  have hpart : argument ∈ (call base arguments range).parts := List.mem_cons_of_mem _ hargument
  obtain ⟨outer, houter, _⟩ := htidy.within base hbase
  obtain ⟨outer', houter', _⟩ := htidy.within argument hpart
  have hordered := List.pairwise_cons.mp (List.pairwise_filterMap.mp htidy.ordered)
  have hbefore := hordered.1 argument hargument outer houter outer' houter'
  exact hbefore.inner ((hparts base hbase).jumps_within houter earlier hearlier)
    ((hparts argument hpart).jumps_within houter' later hlater)

/-- The jump is met first: all others stand behind it or are overtaken by it. What any jump overtakes
does or is too, so that it cannot be this one. -/
structure MetFirst (tree : Node) (r : Range) : Prop where
  mem : r ∈ tree.jumps
  ahead : ∀ r' ∈ tree.jumps, r' = r ∨ r.Before r' ∨ tree.Overtakes r r'
  unpassed : ∀ later r', tree.Overtakes later r' → r.Before r' ∨ tree.Overtakes r r'

/-- By induction over the list; there may be several that start together. -/
theorem exists_earliest {rs : List Range} (h : rs ≠ []) :
    ∃ first ∈ rs, ∀ r ∈ rs, first.start ≤ r.start := by
  induction rs with
  | nil => contradiction
  | cons r rest ih =>
    by_cases hrest : rest = []
    · subst hrest
      exact ⟨r, List.mem_cons_self, by simp [Position.le_refl]⟩
    · obtain ⟨first, hfirst, hleast⟩ := ih hrest
      rcases Position.le_total r.start first.start with hle | hle
      · refine ⟨r, List.mem_cons_self, List.forall_mem_cons.mpr ⟨Position.le_refl _, ?_⟩⟩
        exact fun r' hr' => Position.le_trans hle (hleast r' hr')
      · exact ⟨first, List.mem_cons_of_mem _ hfirst, List.forall_mem_cons.mpr ⟨hle, hleast⟩⟩

namespace MetFirst

variable {tree : Node} {r : Range}

/-- The jump that lowering meets first is overtaken by none: the overtaker would have been met
before it. -/
theorem not_overtaken (h : tree.MetFirst r) (hn : tree.Nested)
    (hproper : ∀ r ∈ tree.jumps, r.start < r.stop) (later : Range) : ¬ tree.Overtakes later r := by
  intro ho
  have hself : r.Before r := by
    rcases h.unpassed later r ho with hbefore | hover
    · exact hbefore
    · exact hn.before_of_overtakes hover
  exact Position.not_lt.mpr (Position.le_refl _) (hself.start_lt (hproper r h.mem))

/-- The jumps before the one that is met first are those that it overtakes. -/
theorem start_lt_iff (h : tree.MetFirst r) (hn : tree.Nested)
    (hproper : ∀ r ∈ tree.jumps, r.start < r.stop) {r' : Range} (hr' : r' ∈ tree.jumps) :
    r'.start < r.start ↔ tree.Overtakes r r' := by
  constructor
  · intro hlt
    rcases h.ahead r' hr' with rfl | hbefore | hover
    · exact False.elim (Position.not_lt.mpr (Position.le_refl _) hlt)
    · have hgt := hbefore.start_lt (hproper r h.mem)
      exact False.elim (Position.not_lt.mpr (Position.le_refl _) (Position.lt_trans hlt hgt))
    · exact hover
  · intro hover
    exact (hn.before_of_overtakes hover).start_lt (hproper r' hr')

/-- The jump that is met first is the first one of the text unless that is overtaken. -/
theorem isFirstJump_iff (h : tree.MetFirst r) (hn : tree.Nested)
    (hproper : ∀ r ∈ tree.jumps, r.start < r.stop) :
    tree.IsFirstJump r ↔ ∀ first, tree.IsFirstJump first → ∀ later, ¬ tree.Overtakes later first := by
  constructor
  · intro hfirst other hother later ho
    rcases h.unpassed later other ho with hbefore | hover
    · have hlt := hbefore.start_lt (hproper r h.mem)
      exact Position.not_lt.mpr (hother.2 r h.mem) hlt
    · have hlt := (h.start_lt_iff hn hproper hother.1).mpr hover
      exact Position.not_lt.mpr (hfirst.2 other hother.1) hlt
  · intro hnone
    obtain ⟨first, hmem, hleast⟩ := exists_earliest (List.ne_nil_of_mem h.mem)
    have hle : r.start ≤ first.start := by
      rw [← Position.not_lt, h.start_lt_iff hn hproper hmem]
      exact hnone first ⟨hmem, hleast⟩ r
    exact ⟨h.mem, fun r' hr' => Position.le_trans hle (hleast r' hr')⟩

end MetFirst

end Node

namespace Outline

variable {cs : List Char} {Has : String → Span → Prop} {P : Span → Prop} {role : Role}
  {version : String} {src : Source}

theorem jumpsOf_eq_flatMap (os : List Outline) : jumpsOf os = os.flatMap jumps := by
  induction os with
  | nil => rfl
  | cons o os ih => rw [jumpsOf, ih, List.flatMap_cons]

theorem jumpsOf_sublist {os : List Outline} {o : Outline} (ho : o ∈ os) :
    o.jumps.Sublist (jumpsOf os) := by
  rw [jumpsOf_eq_flatMap]
  exact List.sublist_flatten_of_mem (List.mem_map_of_mem ho)

/-- The jumps of a part are met in the same order within the whole. -/
theorem jumps_sublist {o part : Outline} (hp : part ∈ o.parts) : part.jumps.Sublist o.jumps := by
  cases o with
  | member base id indexer span =>
    rcases List.mem_cons.mp hp with rfl | hp
    · exact .refl _
    · obtain rfl := List.mem_singleton.mp hp
      exact List.nil_sublist _
  | call base arguments span =>
    rw [jumps]
    rcases List.mem_cons.mp hp with rfl | hp
    · exact List.sublist_append_right _ _
    · exact (jumpsOf_sublist hp).trans (List.sublist_append_left _ _)
  | function name body isLocal span =>
    rw [jumps]
    rcases List.mem_append.mp hp with hp | hp
    · obtain rfl := Option.mem_toList.mp hp
      exact List.sublist_append_left _ _
    · exact (jumpsOf_sublist hp).trans (List.sublist_append_right _ _)
  | callStatement expression span =>
    obtain rfl := List.mem_singleton.mp hp
    exact .refl _
  | block kind body span => exact jumpsOf_sublist hp
  | identifier _ | jump _ _ | unsupported _ _ => cases hp

/-- The parts of a shaped outline are shaped, each in the role that it has there. -/
theorem Shaped.part {d : Demands} {o part : Outline} (h : o.Shaped d role) (hp : part ∈ o.parts) :
    ∃ role', part.Shaped d role' := by
  cases h with
  | member _ hbase hid hname =>
    rcases List.mem_cons.mp hp with rfl | hp
    · exact ⟨_, hbase⟩
    · obtain rfl := List.mem_singleton.mp hp
      exact ⟨_, .identifier hid hname⟩
  | call _ hbase harguments =>
    rcases List.mem_cons.mp hp with rfl | hp
    · exact ⟨_, hbase⟩
    · exact ⟨_, harguments part hp⟩
  | function _ hname _ hbody =>
    rcases List.mem_append.mp hp with hp | hp
    · exact ⟨_, hname part (Option.mem_toList.mp hp)⟩
    · exact ⟨_, hbody part hp⟩
  | callStatement _ hexpression =>
    obtain rfl := List.mem_singleton.mp hp
    exact ⟨_, hexpression⟩
  | block _ hbody => exact ⟨_, hbody part hp⟩
  | identifier _ _ | jump _ _ _ | unsupported _ _ => cases hp

/-- Only the outline of a call becomes a call. -/
theorem resolve_call {o : Outline} {base' : Node} {arguments' : List Node} {range : Range}
    (h : resolve src version o = .ok (.call base' arguments' range)) : ∃ base arguments span,
      o = .call base arguments span ∧ resolveAll src version arguments = .ok arguments' ∧
      resolve src version base = .ok base' := by
  cases o with
  | call base arguments span =>
    simp only [resolve] at h
    obtain ⟨_, harguments, h⟩ := exists_of_bind_ok h
    obtain ⟨_, hbase, h⟩ := exists_of_bind_ok h
    obtain ⟨_, _, h⟩ := exists_of_bind_ok h
    cases h
    exact ⟨base, arguments, span, rfl, harguments, hbase⟩
  | jump kind span =>
    simp only [resolve] at h
    split at h
    · cases h
    · obtain ⟨_, _, h⟩ := exists_of_bind_ok h
      cases h
  | _ =>
    simp only [resolve] at h
    repeat obtain ⟨_, _, h⟩ := exists_of_bind_ok h
    cases h

/-- Every outline of a list that resolves has its node in the result. -/
theorem exists_of_resolveAll {os : List Outline} {nodes : List Node}
    (h : resolveAll src version os = .ok nodes) {o : Outline} (ho : o ∈ os) :
    ∃ node ∈ nodes, resolve src version o = .ok node := by
  induction os generalizing nodes with
  | nil => cases ho
  | cons first rest ih =>
    simp only [resolveAll] at h
    obtain ⟨node, hnode, h⟩ := exists_of_bind_ok h
    obtain ⟨nodes', hrest, h⟩ := exists_of_bind_ok h
    cases h
    rcases List.mem_cons.mp ho with rfl | ho
    · exact ⟨node, List.mem_cons_self, hnode⟩
    · obtain ⟨node', hmem, hnode'⟩ := ih hrest ho
      exact ⟨node', List.mem_cons_of_mem _ hmem, hnode'⟩

/-- The jumps of the arguments of a call and those of what is called, as places and as ranges. -/
theorem placed_call {base : Outline} {arguments : List Outline} {base' : Node}
    {arguments' : List Node} (hbase : base.Shaped (.jumps P) .expression)
    (harguments : ∀ o ∈ arguments, o.Shaped (.jumps P) .expression) (hv : version ≠ jumplessVersion)
    (hr : resolve src version base = .ok base')
    (hr' : resolveAll src version arguments = .ok arguments') :
    Placed src (jumpsOf arguments) (fun r => ∃ argument ∈ arguments', r ∈ argument.jumps) ∧
      Placed src base.jumps (· ∈ base'.jumps) := by
  have hplaced := placed_jumpsOf (fun o ho node hnode => (harguments o ho).placed hv hnode) hr'
  simp only [Node.shows_expression] at hplaced
  exact ⟨hplaced, (hbase.placed hv hr).congr fun r => Node.shows_expression.symm⟩

/-- Of two places the first is met in its turn: its range is before the other one's or overtakes it. -/
def MetBefore (src : Source) (tree : Node) (x y : Span) : Prop :=
  ∀ first second, place src x = .ok first → place src y = .ok second →
    first.Before second ∨ tree.Overtakes first second

theorem MetBefore.of_part {tree part : Node} {x y : Span} (hp : part ∈ tree.parts)
    (h : MetBefore src part x y) : MetBefore src tree x y := by
  intro first second hx hy
  rcases h first second hx hy with hbefore | hover
  · exact .inl hbefore
  · exact .inr (hover.of_part hp)

/-- Outlines in a row are come upon in the order of the text. -/
theorem Row.jumps_met {whole : Span} {os : List Outline} {nodes : List Node} {tree : Node}
    (h : Row cs Has whole os) (hshaped : ∀ o ∈ os, o.Shaped (.jumps P) role)
    (hv : version ≠ jumplessVersion) (hr : resolveAll (.ofChars cs) version os = .ok nodes)
    (hparts : nodes ⊆ tree.parts)
    (hmet : ∀ o ∈ os, ∀ node, resolve (.ofChars cs) version o = .ok node →
      o.jumps.Pairwise (MetBefore (.ofChars cs) node)) :
    (jumpsOf os).Pairwise (MetBefore (.ofChars cs) tree) := by
  rw [jumpsOf_eq_flatMap, List.pairwise_flatMap]
  constructor
  · intro o ho
    obtain ⟨node, hmem, hnode⟩ := exists_of_resolveAll hr ho
    exact (hmet o ho node hnode).imp (.of_part (hparts hmem))
  · refine (List.pairwise_map.mp h.lined.ordered).imp_of_mem ?_
    intro o o' ho ho' hbefore x hx y hy first second hfirst hsecond
    obtain ⟨node, _, hnode⟩ := exists_of_resolveAll hr ho
    obtain ⟨node', _, hnode'⟩ := exists_of_resolveAll hr ho'
    obtain ⟨a, ha, hplace⟩ := (resolve_resolves hnode).placed
    obtain ⟨b, hb, hplace'⟩ := (resolve_resolves hnode').placed
    have hab := place_before (h.nested o ho).in (h.nested o' ho').in hbefore hplace hplace'
    have hshows := (((hshaped o ho).placed hv hnode).iff first).mp ⟨x, hx, hfirst⟩
    have hshows' := (((hshaped o' ho').placed hv hnode').iff second).mp ⟨y, hy, hsecond⟩
    exact .inl (hab.inner (hshows.within ((h.nested o ho).resolve_nested hnode) ha)
      (hshows'.within ((h.nested o' ho').resolve_nested hnode') hb))

/-- Jumps are met in the order of the text, but those in the arguments of a call before those in what is
called. -/
theorem Shaped.jumps_met {o : Outline} {node : Node} (h : o.Shaped (.jumps P) role)
    (hn : o.Nested cs Has) (hv : version ≠ jumplessVersion)
    (hr : resolve (.ofChars cs) version o = .ok node) :
    o.jumps.Pairwise (MetBefore (.ofChars cs) node) := by
  induction h generalizing node with
  | identifier _ _ | unsupported _ _ => exact .nil
  | jump _ _ _ => exact List.pairwise_singleton _ _
  | member _ _ _ _ ih =>
    simp only [resolve] at hr
    obtain ⟨base', hbase, hr⟩ := exists_of_bind_ok hr
    obtain ⟨id, _, hr⟩ := exists_of_bind_ok hr
    obtain ⟨range, _, hr⟩ := exists_of_bind_ok hr
    cases hr
    exact (ih (hn.part List.mem_cons_self).1 hbase).imp (.of_part List.mem_cons_self)
  | callStatement _ _ ih =>
    simp only [resolve] at hr
    obtain ⟨expression', he, hr⟩ := exists_of_bind_ok hr
    obtain ⟨range, _, hr⟩ := exists_of_bind_ok hr
    cases hr
    exact (ih (hn.part List.mem_cons_self).1 he).imp (.of_part List.mem_cons_self)
  | function _ _ hhead hbody _ ih =>
    simp only [resolve] at hr
    obtain ⟨name', _, hr⟩ := exists_of_bind_ok hr
    obtain ⟨body', hresolve, hr⟩ := exists_of_bind_ok hr
    obtain ⟨range, _, hr⟩ := exists_of_bind_ok hr
    cases hr
    rw [jumps, jumpsOfName_eq_nil hhead, List.nil_append]
    exact hn.row.jumps_met hbody hv hresolve (List.subset_append_right _ _)
      fun o ho node hnode => ih o ho (hn.row.nested o ho) hnode
  | block _ hbody ih =>
    simp only [resolve] at hr
    obtain ⟨body', hresolve, hr⟩ := exists_of_bind_ok hr
    obtain ⟨range, _, hr⟩ := exists_of_bind_ok hr
    cases hr
    exact hn.row.jumps_met hbody hv hresolve (List.Subset.refl _)
      fun o ho node hnode => ih o ho (hn.row.nested o ho) hnode
  | call _ hbase harguments ihBase ihArguments =>
    simp only [resolve] at hr
    obtain ⟨arguments', hresolve, hr⟩ := exists_of_bind_ok hr
    obtain ⟨base', hresolve', hr⟩ := exists_of_bind_ok hr
    obtain ⟨range, _, hr⟩ := exists_of_bind_ok hr
    cases hr
    have hrow := hn.row.tail
    obtain ⟨hlater, hearlier⟩ := placed_call hbase harguments hv hresolve' hresolve
    -- Across the two lists it is the arguments that overtake what is called.
    rw [jumps, List.pairwise_append]
    refine ⟨?_, (ihBase hn.row.head.1 hresolve').imp (.of_part List.mem_cons_self), ?_⟩
    · exact hrow.jumps_met harguments hv hresolve (List.subset_cons_self _ _)
        fun o ho node hnode => ihArguments o ho (hrow.nested o ho) hnode
    · intro x hx y hy first second hfirst hsecond
      have hbehind := (hlater.iff first).mp ⟨x, hx, hfirst⟩
      have hahead := (hearlier.iff second).mp ⟨y, hy, hsecond⟩
      exact .inr ⟨base', arguments', range, Node.mem_nodes_self _, hahead, hbehind⟩

/-- A jump that is overtaken is met after the one that overtakes it. -/
theorem Shaped.sublist_of_overtakes {o : Outline} {node : Node} (h : o.Shaped (.jumps P) role)
    (hv : version ≠ jumplessVersion) (hr : resolve src version o = .ok node)
    {later earlier : Range} (ho : node.Overtakes later earlier) :
    ∃ x y, [x, y].Sublist o.jumps ∧ place src x = .ok later ∧ place src y = .ok earlier := by
  obtain ⟨base', arguments', range, hcall, hahead, hbehind⟩ := ho
  induction node using Node.parts_induction generalizing o role with
  | h node ih =>
    rw [Node.nodes_eq] at hcall
    rcases List.mem_cons.mp hcall with rfl | hcall
    · obtain ⟨base, arguments, span, rfl, hresolve, hresolve'⟩ := resolve_call hr
      cases h with
      | call _ hbase harguments =>
        obtain ⟨hlater, hearlier⟩ := placed_call hbase harguments hv hresolve' hresolve
        obtain ⟨x, hx, hfirst⟩ := (hlater.iff later).mpr hbehind
        obtain ⟨y, hy, hsecond⟩ := (hearlier.iff earlier).mpr hahead
        refine ⟨x, y, ?_, hfirst, hsecond⟩
        exact (List.singleton_sublist.mpr hx).append (List.singleton_sublist.mpr hy)
    · obtain ⟨part, hp, hcall⟩ := List.mem_flatMap.mp hcall
      obtain ⟨p, hp', hpart⟩ := (resolve_resolves hr).parts part hp
      obtain ⟨role', hshaped⟩ := h.part hp'
      obtain ⟨x, y, hsub, hplaces⟩ := ih part hp hshaped hpart hcall
      exact ⟨x, y, hsub.trans (jumps_sublist hp'), hplaces⟩

/-- The first of all jumps of a document is the one that is met first. -/
theorem Row.metFirst {whole : Span} {os : List Outline} {body : List Node} (h : Row cs Has whole os)
    (hshaped : ∀ o ∈ os, o.Shaped (.jumps P) .statement) (hv : version ≠ jumplessVersion)
    (hr : resolveAll (.ofChars cs) version os = .ok body) {span : Span} {rest : List Span}
    (hjumps : jumpsOf os = span :: rest) {r : Range} (hplace : place (.ofChars cs) span = .ok r) :
    (Node.chunk body).MetFirst r := by
  have hmet := h.jumps_met hshaped hv hr (List.Subset.refl (Node.chunk body).parts)
    fun o ho node hnode => (hshaped o ho).jumps_met (h.nested o ho) hv hnode
  have hplaced := placed_chunk hshaped hv hr
  rw [hjumps, List.pairwise_cons] at hmet
  refine ⟨(hplaced.iff r).mp ⟨span, by simp [hjumps], hplace⟩, ?_, ?_⟩
  · intro r' hr'
    obtain ⟨span', hspan', hplace'⟩ := (hplaced.iff r').mpr hr'
    rw [hjumps] at hspan'
    rcases List.mem_cons.mp hspan' with rfl | hspan'
    · exact .inl (Except.ok.inj (hplace'.symm.trans hplace))
    · exact .inr (hmet.1 span' hspan' r r' hplace hplace')
  · -- An overtaken jump has one before it, so it is not the first.
    rintro later r' ⟨base, arguments, range, hcall, hover⟩
    rw [Node.nodes_eq] at hcall
    rcases List.mem_cons.mp hcall with hcall | hcall
    · cases hcall
    obtain ⟨part, hp, hcall⟩ := List.mem_flatMap.mp hcall
    obtain ⟨o, ho, hpart⟩ := mem_resolveAll hr hp
    obtain ⟨x, y, hsub, _, hplace'⟩ :=
      (hshaped o ho).sublist_of_overtakes hv hpart ⟨base, arguments, range, hcall, hover⟩
    have hsub' : [x, y].Sublist (span :: rest) := hjumps ▸ hsub.trans (jumpsOf_sublist ho)
    exact hmet.1 y (hsub'.tail.subset List.mem_cons_self) r r' hplace hplace'

end Outline

structure Span.Worded (cs : List Char) (span : Span) : Prop where
  place : span.In cs
  word : ∃ c ∈ (Source.ofChars cs).chars span, isBlank c = false

theorem Span.Worded.forward {cs : List Char} {span : Span} (h : span.Worded cs) :
    span.start.offset < span.stop.offset := by
  obtain ⟨c, hc, _⟩ := h.word
  by_contra hlt
  have hnone : (Source.ofChars cs).chars span = [] := by
    rw [Source.chars, Source.slice, Array.extract_empty_of_stop_le_start (Nat.le_of_not_lt hlt)]
    rfl
  simp [hnone] at hc

theorem Span.Worded.place_proper {cs : List Char} {span : Span} {range : Range} (h : span.Worded cs)
    (hr : Outline.place (.ofChars cs) span = .ok range) : range.start < range.stop := by
  rw [(Outline.place_bounds hr).1, (Outline.place_bounds hr).2]
  exact Source.position_lt h.place.start h.place.stop h.forward

namespace ParseTree

variable {cs : List Char} {t : ParseTree} {version : String} {body : List Node}

theorem LaidOut.worded (hl : t.LaidOut cs) (hwords : t.WordedJumps (.ofChars cs)) :
    ∀ n ∈ t.nodes, Label.isJump n.label.kind = true → n.label.span.Worded cs :=
  fun n hn hjump => ⟨(hl n hn).place, hwords n hn hjump⟩

theorem LaidOut.jumps_proper (hl : t.LaidOut cs) (hnames : t.PlainNames)
    (hwords : t.WordedJumps (.ofChars cs)) (hv : version ≠ jumplessVersion)
    (hbody : Outline.resolveAll (.ofChars cs) version t.outline = .ok body) :
    ∀ r ∈ (Node.chunk body).jumps, r.start < r.stop := by
  have hshaped := outline_shaped (hnames.meets (hl.worded hwords))
  intro r hr
  obtain ⟨span, hspan, hplace⟩ := ((Outline.placed_chunk hshaped hv hbody).iff r).mpr hr
  exact (Outline.jumpsOf_places hshaped span hspan).place_proper hplace

/-- The jump that is refused is the one that is met first. -/
theorem LaidOut.refused_metFirst (hl : t.LaidOut cs) (herror : t.label.faulty = false)
    (hnames : t.PlainNames) (hwords : t.WordedJumps (.ofChars cs)) (hv : version ≠ jumplessVersion)
    (hbody : Outline.resolveAll (.ofChars cs) version t.outline = .ok body) {word : String}
    {position : Option Position}
    (h : t.lower (.ofChars cs) jumplessVersion = .error (.failure ⟨.jump word, position⟩)) :
    ∃ r, position = some r.start ∧ (Node.chunk body).MetFirst r := by
  have hshaped := outline_shaped (hnames.meets (hl.worded hwords))
  cases hjumps : Outline.jumpsOf t.outline with
  | nil =>
    rw [lower_unlessJump herror hv hbody, hjumps] at h
    cases h
  | cons span rest =>
    have hmem : span ∈ Outline.jumpsOf t.outline := by simp [hjumps]
    have hworded := Outline.jumpsOf_places hshaped span hmem
    obtain ⟨r, hr⟩ := (Outline.placed_chunk hshaped hv hbody).range span hmem
    obtain ⟨word', hlower⟩ := lower_refused herror hv hbody hjumps hworded.word
    rw [hlower] at h
    cases h
    exact ⟨r, by rw [(Outline.place_bounds hr).1], hl.row.metFirst hshaped hv hbody hjumps hr⟩

end ParseTree

/-- A document that is refused for a jump has a tree in the other dialects. The jump is one that no other
overtakes, and those before it are just the ones that it overtakes itself: so it is the first of the text
exactly if no jump overtakes that one. -/
theorem Text.parseWith_firstJump (text : Text) (tree : ParseTree) (herror : tree.label.faulty = false)
    (hl : tree.LaidOut text.chars) (hnames : tree.PlainNames)
    (hwords : tree.WordedJumps (.ofChars text.chars)) (word : String) (position : Option Position)
    (hrefused : text.parseWith "5.1" (fun _ => some tree) =
      .error (.failure ⟨.jump word, position⟩)) :
    ∃ chunk, text.parseWith "5.4" (fun _ => some tree) = .ok chunk ∧
      ∃ reported ∈ chunk.jumps, position = some reported.start ∧
        (∀ later, ¬ chunk.Overtakes later reported) ∧
        (∀ r ∈ chunk.jumps, r.start < reported.start ↔ chunk.Overtakes reported r) ∧
        (chunk.IsFirstJump reported ↔
          ∀ first, chunk.IsFirstJump first → ∀ later, ¬ chunk.Overtakes later first) := by
  -- The text has no surrogate, or it would have been refused for that.
  have hparse (version : String) :
      text.parseWith version (fun _ => some tree) = tree.lower (.ofChars text.chars) version := by
    simp only [parseWith] at hrefused ⊢
    split at hrefused
    · cases hrefused
    · rfl
  rw [hparse] at hrefused
  simp only [hparse]
  cases hchunk : tree.lower (.ofChars text.chars) "5.4" with
  | error why => exact absurd (hl.lower_error herror hchunk).1 (by decide)
  | ok chunk =>
    obtain ⟨body, rfl, hbody⟩ := ParseTree.lower_body herror hchunk
    have hv : "5.4" ≠ jumplessVersion := by decide
    have hnested := hl.row.chunk_nested hbody
    have hproper := hl.jumps_proper hnames hwords hv hbody
    obtain ⟨reported, hposition, hmet⟩ :=
      hl.refused_metFirst herror hnames hwords hv hbody hrefused
    exact ⟨_, rfl, reported, hmet.mem, hposition, hmet.not_overtaken hnested hproper,
      fun r hr => hmet.start_lt_iff hnested hproper hr, hmet.isFirstJump_iff hnested hproper⟩

/-- A jump in what is called, a label within a call in its arguments, and a label behind them. -/
def overtaking : List Char := "(function()goto a end)(f(function()::b::end))\n::c::".toList

def overtakingTree : ParseTree := (Lua.parseTree? overtaking).get (by decide +kernel)

/-- The label in the argument is refused although a jump in what is called stands before it. -/
theorem Text.parseWith_firstJump_overtaking :
    Lua.parseTree? overtaking = some overtakingTree ∧ overtakingTree.label.faulty = false ∧
    overtakingTree.LaidOut (ofChars overtaking).chars ∧ overtakingTree.PlainNames ∧
    overtakingTree.WordedJumps (.ofChars (ofChars overtaking).chars) ∧
    (ofChars overtaking).parseWith "5.1" (fun _ => some overtakingTree) =
      .error (.failure ⟨.jump "::b::", some ⟨0, 35⟩⟩) ∧
    ∃ chunk, (ofChars overtaking).parseWith "5.4" (fun _ => some overtakingTree) = .ok chunk ∧
      chunk.jumps.map (·.start) = [⟨1, 0⟩, ⟨0, 11⟩, ⟨0, 35⟩] ∧
      ∃ reported ∈ chunk.jumps, reported.start = ⟨0, 35⟩ ∧
        (∀ later, ¬ chunk.Overtakes later reported) ∧
        (∀ r ∈ chunk.jumps, r.start < reported.start ↔ chunk.Overtakes reported r) ∧
        (chunk.IsFirstJump reported ↔
          ∀ first, chunk.IsFirstJump first → ∀ later, ¬ chunk.Overtakes later first) := by
  have hchecked : overtakingTree.label.faulty = false ∧
      overtakingTree.LaidOut (ofChars overtaking).chars ∧ overtakingTree.PlainNames ∧
      overtakingTree.WordedJumps (.ofChars (ofChars overtaking).chars) ∧
      ((ofChars overtaking).parseWith "5.1" fun _ => some overtakingTree).map Node.jumps =
        .error (.failure ⟨.jump "::b::", some ⟨0, 35⟩⟩) ∧
      ((ofChars overtaking).parseWith "5.4" fun _ => some overtakingTree).toOption.map
        (fun chunk => chunk.jumps.map (·.start)) = some [⟨1, 0⟩, ⟨0, 11⟩, ⟨0, 35⟩] := by decide +kernel
  obtain ⟨herror, hl, hnames, hwords, hjumps, hstarts⟩ := hchecked
  have hrefused := error_of_map hjumps
  refine ⟨(Option.some_get _).symm, herror, hl, hnames, hwords, hrefused, ?_⟩
  obtain ⟨chunk, hchunk, reported, hmem, hposition, hfirst⟩ :=
    parseWith_firstJump (ofChars overtaking) overtakingTree herror hl hnames hwords _ _ hrefused
  rw [hchunk] at hstarts
  exact ⟨chunk, hchunk, Option.some.inj hstarts, reported, hmem, (Option.some.inj hposition).symm,
    hfirst⟩

def overtaken : List Char := "(function()goto a end)(function()goto b end)".toList

def overtakenTree : ParseTree := (Lua.parseTree? overtaken).get (by decide +kernel)

/-- The jump in the argument is refused, although there is one before it. -/
theorem Text.overtaken_refused_late :
    Lua.parseTree? overtaken = some overtakenTree ∧ overtakenTree.label.faulty = false ∧
    overtakenTree.WellFormed (ofChars overtaken).chars ∧ overtakenTree.PlainNames ∧
    overtakenTree.WordedJumps (.ofChars (ofChars overtaken).chars) ∧
    (ofChars overtaken).parseWith "5.1" (fun _ => some overtakenTree) =
      .error (.failure ⟨.jump "goto", some ⟨0, 33⟩⟩) ∧
    ∃ chunk, (ofChars overtaken).parseWith "5.4" (fun _ => some overtakenTree) = .ok chunk ∧
      ∃ r ∈ chunk.jumps, r.start < ⟨0, 33⟩ := by
  have hchecked : overtakenTree.label.faulty = false ∧
      overtakenTree.WellFormed (ofChars overtaken).chars ∧ overtakenTree.PlainNames ∧
      overtakenTree.WordedJumps (.ofChars (ofChars overtaken).chars) ∧
      ((ofChars overtaken).parseWith "5.1" fun _ => some overtakenTree).map Node.jumps =
        .error (.failure ⟨.jump "goto", some ⟨0, 33⟩⟩) ∧
      ((ofChars overtaken).parseWith "5.4" fun _ => some overtakenTree).toOption.map
        (fun chunk => chunk.jumps.map (·.start)) = some [⟨0, 11⟩, ⟨0, 33⟩] := by decide +kernel
  obtain ⟨herror, hformed, hnames, hwords, hrefused, hstarts⟩ := hchecked
  refine ⟨(Option.some_get _).symm, herror, hformed, hnames, hwords, error_of_map hrefused, ?_⟩
  obtain ⟨chunk, hchunk, hstarts⟩ := Option.map_eq_some_iff.mp hstarts
  refine ⟨chunk, toOption_eq_some.mp hchunk, ?_⟩
  have hmem : ⟨0, 11⟩ ∈ chunk.jumps.map (·.start) := by simp [hstarts]
  obtain ⟨r, hr, hstart⟩ := List.mem_map.mp hmem
  exact ⟨r, hr, by rw [hstart]; decide⟩

end LuaSymbols
