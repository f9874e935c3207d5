import LuaSymbols.Lowering
import LuaSymbols.Walk
import LuaSymbols.Proofs.Nesting
import Mathlib.Data.List.Forall2

namespace LuaSymbols

theorem exists_of_bind_ok {ε α β : Type} {x : Except ε α} {f : α → Except ε β} {b : β}
    (h : x >>= f = .ok b) : ∃ a, x = .ok a ∧ f a = .ok b := by
  cases x with
  | error why => cases h
  | ok a => exact ⟨a, rfl, h⟩

theorem error_of_bind {ε α β : Type} {x : Except ε α} {f : α → Except ε β} {why : ε}
    (h : x >>= f = .error why) : x = .error why ∨ ∃ a, x = .ok a ∧ f a = .error why := by
  cases x with
  | error why' =>
    cases h
    exact .inl rfl
  | ok a => exact .inr ⟨a, rfl, h⟩

namespace Outline

mutual

def mentions : Outline → List Span
  | .identifier span => [span]
  | .member _ id _ _ => [id]
  | .call base arguments _ => mentions base ++ mentionsOf arguments
  | .function _ body _ _ => mentionsOf body
  | .callStatement expression _ => mentions expression
  | .block _ body _ => mentionsOf body
  | .jump _ _ | .unsupported _ _ => []

def mentionsOf : List Outline → List Span
  | [] => []
  | o :: rest => mentions o ++ mentionsOf rest

end

theorem mentionsOf_eq_flatMap (os : List Outline) : mentionsOf os = os.flatMap mentions := by
  induction os with
  | nil => rfl
  | cons o os ih => rw [mentionsOf, ih, List.flatMap_cons]

variable {cs : List Char} {Name : Span → Prop} {Has : String → Span → Prop} {version : String}

structure Listed (cs : List Char) (Name : Span → Prop) (whole : Span) (names : List Span) : Prop where
  lined : whole.Lined names
  place : ∀ name ∈ names, name.In cs
  name : ∀ name ∈ names, Name name

theorem Listed.single {whole name : Span} (hcovers : whole.Covers name) (hplace : name.In cs)
    (hname : Name name) : Listed cs Name whole [name] :=
  ⟨.single hcovers, by simpa using hplace, by simpa using hname⟩

theorem Listed.within {whole part : Span} {names : List Span} (h : Listed cs Name part names)
    (hcovers : whole.Covers part) : Listed cs Name whole names :=
  ⟨h.lined.widen hcovers, h.place, h.name⟩

/-- Names of outlines that stand in a row are in order: within an outline by hypothesis, across two
by the row. -/
theorem Listed.flatMap {whole : Span} {os : List Outline} (hl : whole.Lined (os.map span))
    (h : ∀ o ∈ os, Listed cs Name o.span o.mentions) : Listed cs Name whole (os.flatMap mentions) := by
  have hlined : whole.Lined ((os.map fun o => (o.span, o.mentions)).flatMap Prod.snd) := by
    apply Span.Lined.flatMap
    · simpa [Function.comp_def] using hl
    · intro row hrow
      obtain ⟨o, ho, rfl⟩ := List.mem_map.mp hrow
      exact (h o ho).lined
  rw [List.flatMap_map] at hlined
  refine ⟨hlined, ?_, ?_⟩ <;> intro name hname <;> obtain ⟨o, ho, hm⟩ := List.mem_flatMap.mp hname
  · exact (h o ho).place name hm
  · exact (h o ho).name name hm

/-- The names of a nested outline are identifiers of the tree, in the order of the text. -/
theorem Nested.listed {o : Outline} (h : o.Nested cs Has) :
    Listed cs (Has "identifier") o.span o.mentions := by
  induction h with
  | identifier hplace hname => exact .single (.refl _) hplace hname
  | member _ _ _ hplace hname hcovers => exact .single hcovers hplace hname
  | call _ _ hl ih =>
    have hlisted := Listed.flatMap hl ih
    rwa [List.flatMap_cons, ← mentionsOf_eq_flatMap] at hlisted
  | function _ _ _ _ hl _ ih =>
    rw [mentions, mentionsOf_eq_flatMap]
    exact .flatMap hl ih
  | callStatement _ _ hcovers ih => exact ih.within hcovers
  | block _ _ hl ih =>
    rw [mentions, mentionsOf_eq_flatMap]
    exact .flatMap hl ih
  | jump _ _ _ => exact ⟨.nil _, by simp [mentions], by simp [mentions]⟩
  | unsupported _ => exact ⟨.nil _, by simp [mentions], by simp [mentions]⟩

theorem place_ok {span : Span} (h : span.In cs) : ∃ range, place (.ofChars cs) span = .ok range := by
  have hle := Source.position_le h.start h.stop h.forward
  refine ⟨⟨_, _, hle⟩, ?_⟩
  simp [place, Source.range, Range.between, Range.ofPositions?, hle, Except.mapError]

/-- The range of a span has the positions of its ends. There is no other way to get one. -/
theorem place_bounds {src : Source} {span : Span} {range : Range} (h : place src span = .ok range) :
    range.start = src.position span.start ∧ range.stop = src.position span.stop := by
  simp only [place, Source.range, Range.between, Range.ofPositions?] at h
  split at h
  · rename_i r hr
    split at hr
    · cases hr
      cases h
      exact ⟨rfl, rfl⟩
    · cases hr
  · cases h

theorem resolveAll_ok {src : Source} {os : List Outline}
    (h : ∀ o ∈ os, ∃ node, resolve src version o = .ok node) :
    ∃ nodes, resolveAll src version os = .ok nodes := by
  induction os with
  | nil => exact ⟨[], rfl⟩
  | cons o os ih =>
    obtain ⟨node, hnode⟩ := h o List.mem_cons_self
    obtain ⟨nodes, hnodes⟩ := ih fun o ho => h o (List.mem_cons_of_mem _ ho)
    refine ⟨node :: nodes, ?_⟩
    simp only [resolveAll, hnode, hnodes]
    rfl

/-- The first outline of a list without a node is where the error comes from. -/
theorem resolveAll_error {src : Source} {os : List Outline} {why : ParseError}
    (h : resolveAll src version os = .error why) : ∃ o ∈ os, resolve src version o = .error why := by
  induction os with
  | nil => cases h
  | cons o os ih =>
    simp only [resolveAll] at h
    rcases error_of_bind h with h | ⟨node, _, h⟩
    · exact ⟨o, List.mem_cons_self, h⟩
    · rcases error_of_bind h with h | ⟨nodes, _, h⟩
      · obtain ⟨o', ho', hwhy⟩ := ih h
        exact ⟨o', List.mem_cons_of_mem _ ho', hwhy⟩
      · cases h

theorem resolveName_error {src : Source} {name : Option Outline} {why : ParseError}
    (h : resolveName src version name = .error why) :
    ∃ o, name = some o ∧ resolve src version o = .error why := by
  cases name with
  | none => cases h
  | some o =>
    simp only [resolveName] at h
    rcases error_of_bind h with h | ⟨node, _, h⟩
    · exact ⟨o, rfl, h⟩
    · cases h

/-- Only a jump, in a dialect without jumps, makes a nested outline fail. -/
theorem Nested.resolve_error {o : Outline} (h : o.Nested cs Has) {why : ParseError}
    (he : resolve (.ofChars cs) version o = .error why) :
    version = jumplessVersion ∧ ∃ kind span, Label.isJump kind = true ∧ Has kind span ∧
      why = refuseJump (.ofChars cs) span := by
  induction h with
  -- Every place has a range, so what can fail is a part or a jump.
  | identifier hplace _ =>
    obtain ⟨range, hr⟩ := place_ok hplace
    simp only [resolve, nameAt, hr] at he
    cases he
  | member hplace _ _ hid _ _ ih =>
    obtain ⟨range, hr⟩ := place_ok hplace
    obtain ⟨idRange, hir⟩ := place_ok hid
    simp only [resolve, nameAt, hr, hir] at he
    rcases error_of_bind he with he | ⟨base, _, he⟩
    · exact ih he
    · cases he
  | call hplace _ _ ih =>
    obtain ⟨range, hr⟩ := place_ok hplace
    simp only [resolve, hr] at he
    rcases error_of_bind he with he | ⟨arguments, _, he⟩
    · obtain ⟨o, ho, hwhy⟩ := resolveAll_error he
      exact ih o (List.mem_cons_of_mem _ ho) hwhy
    · rcases error_of_bind he with he | ⟨base, _, he⟩
      · exact ih _ List.mem_cons_self he
      · cases he
  | function hplace _ _ _ _ ihName ih =>
    obtain ⟨range, hr⟩ := place_ok hplace
    simp only [resolve, hr] at he
    rcases error_of_bind he with he | ⟨name, _, he⟩
    · obtain ⟨o, ho, hwhy⟩ := resolveName_error he
      exact ihName o ho hwhy
    · rcases error_of_bind he with he | ⟨body, _, he⟩
      · obtain ⟨o, ho, hwhy⟩ := resolveAll_error he
        exact ih o ho hwhy
      · cases he
  | callStatement hplace _ _ ih =>
    obtain ⟨range, hr⟩ := place_ok hplace
    simp only [resolve, hr] at he
    rcases error_of_bind he with he | ⟨expression, _, he⟩
    · exact ih he
    · cases he
  | block hplace _ _ ih =>
    obtain ⟨range, hr⟩ := place_ok hplace
    simp only [resolve, hr] at he
    rcases error_of_bind he with he | ⟨body, _, he⟩
    · obtain ⟨o, ho, hwhy⟩ := resolveAll_error he
      exact ih o ho hwhy
    · cases he
  | jump hplace hkind hhas =>
    obtain ⟨range, hr⟩ := place_ok hplace
    simp only [resolve, hr] at he
    split at he
    · rename_i hv
      cases he
      exact ⟨hv, _, _, hkind, hhas, rfl⟩
    · cases he
  | unsupported hplace =>
    obtain ⟨range, hr⟩ := place_ok hplace
    simp only [resolve, hr] at he
    cases he

theorem Nested.resolve_ok {o : Outline} (h : o.Nested cs Has)
    (hv : version = jumplessVersion → ∀ kind span, Has kind span → Label.isJump kind = false) :
    ∃ node, resolve (.ofChars cs) version o = .ok node := by
  cases hr : resolve (.ofChars cs) version o with
  | ok node => exact ⟨node, rfl⟩
  | error why =>
    obtain ⟨he, kind, span, hkind, hhas, _⟩ := h.resolve_error hr
    simp [hv he kind span hhas] at hkind

end Outline

structure Occurrence.At (src : Source) (span : Span) (o : Occurrence) : Prop where
  name : o.name = src.text span
  start : o.range.start = src.position span.start
  stop : o.range.stop = src.position span.stop

/-- The later findings have one more mention for each of some places, in their order. -/
def Findings.Adds (src : Source) (found : Findings) (spans : List Span) (found' : Findings) : Prop :=
  ∃ os, found'.occurrences.toList = found.occurrences.toList ++ os ∧
    List.Forall₂ (Occurrence.At src) spans os

namespace Findings

variable {src : Source} {found found' found'' : Findings}

theorem Adds.refl (src : Source) (found : Findings) : found.Adds src [] found :=
  ⟨[], by simp, .nil⟩

theorem Adds.trans {first second : List Span} (h : found.Adds src first found')
    (h' : found'.Adds src second found'') : found.Adds src (first ++ second) found'' := by
  obtain ⟨os, he, hall⟩ := h
  obtain ⟨os', he', hall'⟩ := h'
  exact ⟨os ++ os', by rw [he', he, List.append_assoc], List.rel_append hall hall'⟩

theorem adds_mention {span : Span} {id : Identifier} (h : Outline.nameAt src span = .ok id)
    (found : Findings) (base : String) : found.Adds src [span] (found.mention id base) := by
  obtain ⟨range, hr, h⟩ := exists_of_bind_ok h
  cases h
  obtain ⟨hstart, hstop⟩ := Outline.place_bounds hr
  refine ⟨[⟨src.text span, base, range⟩], by simp [mention], .cons ?_ .nil⟩
  exact ⟨rfl, hstart, hstop⟩

end Findings

namespace Outline

variable {src : Source} {version : String}

mutual

/-- The tree of an outline can be walked, and the walk finds the names of the outline. -/
theorem collect_resolve (o : Outline) {node : Node} (h : resolve src version o = .ok node)
    (container : String) (ancestors : List Node) (found : Findings) :
    ∃ found', node.collect container ancestors found = .ok found' ∧
      found.Adds src o.mentions found' := by
  match o with
  | .identifier span =>
    simp only [resolve] at h
    obtain ⟨id, hid, h⟩ := exists_of_bind_ok h
    cases h
    exact ⟨_, rfl, Findings.adds_mention hid (found.visit _ ancestors) ""⟩
  | .member base id indexer span =>
    simp only [resolve] at h
    obtain ⟨base', _, h⟩ := exists_of_bind_ok h
    obtain ⟨id', hid, h⟩ := exists_of_bind_ok h
    obtain ⟨range, _, h⟩ := exists_of_bind_ok h
    cases h
    exact ⟨_, rfl, Findings.adds_mention hid (found.visit _ ancestors) base'.dotted⟩
  | .call base arguments span =>
    simp only [resolve] at h
    obtain ⟨arguments', hargs, h⟩ := exists_of_bind_ok h
    obtain ⟨base', hbase, h⟩ := exists_of_bind_ok h
    obtain ⟨range, _, h⟩ := exists_of_bind_ok h
    cases h
    obtain ⟨middle, hcollect, hadds⟩ := collect_resolve base hbase container ancestors
      (found.visit (.call base' arguments' range) ancestors)
    obtain ⟨found', hcollect', hadds'⟩ := collectAll_resolveAll arguments hargs container ancestors
      middle
    refine ⟨found', ?_, hadds.trans hadds'⟩
    simp only [Node.collect, hcollect]
    exact hcollect'
  | .function name body isLocal span =>
    simp only [resolve] at h
    obtain ⟨name', _, h⟩ := exists_of_bind_ok h
    obtain ⟨body', hbody, h⟩ := exists_of_bind_ok h
    obtain ⟨range, _, h⟩ := exists_of_bind_ok h
    cases h
    -- The walk declares the function and passes its name by, so its mentions are those of the body.
    let self := Node.function name' body' isLocal range
    let visited := found.visit self ancestors
    let declared := match name'.bind Node.declaredName? with
      | some declared => visited.declare declared range container
      | none => visited
    have hsame : declared.occurrences = found.occurrences := by
      simp only [declared, visited]
      split <;> rfl
    obtain ⟨found', hcollect, os, he, hall⟩ := collectAll_resolveAll body hbody container
      (ancestors ++ [self]) declared
    exact ⟨found', hcollect, os, hsame ▸ he, hall⟩
  | .callStatement expression span =>
    simp only [resolve] at h
    obtain ⟨expression', he, h⟩ := exists_of_bind_ok h
    obtain ⟨range, _, h⟩ := exists_of_bind_ok h
    cases h
    exact collect_resolve expression he container ancestors
      (found.visit (.callStatement expression' range) ancestors)
  | .block kind body span =>
    simp only [resolve] at h
    obtain ⟨body', hbody, h⟩ := exists_of_bind_ok h
    obtain ⟨range, _, h⟩ := exists_of_bind_ok h
    cases h
    exact collectAll_resolveAll body hbody container ancestors
      (found.visit (.block kind body' range) ancestors)
  | .jump kind span =>
    simp only [resolve] at h
    split at h
    · cases h
    obtain ⟨range, _, h⟩ := exists_of_bind_ok h
    cases h
    exact ⟨_, rfl, .refl src found⟩
  | .unsupported kind span =>
    simp only [resolve] at h
    obtain ⟨range, _, h⟩ := exists_of_bind_ok h
    cases h
    exact ⟨_, rfl, .refl src found⟩

/-- The list case, in one induction with the theorem above. -/
theorem collectAll_resolveAll (os : List Outline) {nodes : List Node}
    (h : resolveAll src version os = .ok nodes) (container : String) (ancestors : List Node)
    (found : Findings) : ∃ found', Node.collectAll container ancestors found nodes = .ok found' ∧
      found.Adds src (mentionsOf os) found' := by
  match os with
  | [] =>
    cases h
    exact ⟨found, rfl, .refl src found⟩
  | o :: rest =>
    simp only [resolveAll] at h
    obtain ⟨node, hnode, h⟩ := exists_of_bind_ok h
    obtain ⟨nodes', hrest, h⟩ := exists_of_bind_ok h
    cases h
    obtain ⟨middle, hcollect, hadds⟩ := collect_resolve o hnode container ancestors found
    obtain ⟨found', hcollect', hadds'⟩ := collectAll_resolveAll rest hrest container ancestors middle
    refine ⟨found', ?_, hadds.trans hadds'⟩
    simp only [Node.collectAll, hcollect]
    exact hcollect'

end

end Outline

end LuaSymbols
