import LuaSymbols.Proofs.Mentions
import LuaSymbols.Proofs.Visits

namespace LuaSymbols

theorem toOption_eq_some {ε α : Type} {x : Except ε α} {a : α} : x.toOption = some a ↔ x = .ok a := by
  cases x <;> simp [Except.toOption]

namespace Outline

variable {src : Source} {version : String} {o : Outline} {os : List Outline} {node : Node}
  {nodes : List Node}

/-- All parts of an outline. The name of a member is one by itself. -/
def parts : Outline → List Outline
  | .member base id _ _ => [base, .identifier id]
  | .call base arguments _ => base :: arguments
  | .function name body _ _ => name.toList ++ body
  | .callStatement expression _ => [expression]
  | .block _ body _ => body
  | .identifier _ | .jump .. | .unsupported .. => []

def walked : Outline → List Outline
  | .call base arguments _ => base :: arguments
  | .function _ body _ _ | .block _ body _ => body
  | .callStatement expression _ => [expression]
  | .identifier _ | .member .. | .jump .. | .unsupported .. => []

/-- A list that resolves as a whole is the list of what its outlines resolve to; none
is left out. -/
theorem resolveAll_eq_filterMap (h : resolveAll src version os = .ok nodes) :
    nodes = os.filterMap fun o => (resolve src version o).toOption := by
  induction os generalizing nodes with
  | nil =>
    cases h
    rfl
  | cons o os ih =>
    simp only [resolveAll] at h
    obtain ⟨node, hnode, h⟩ := exists_of_bind_ok h
    obtain ⟨rest, hrest, h⟩ := exists_of_bind_ok h
    cases h
    rw [ih hrest, List.filterMap_cons, toOption_eq_some.mpr hnode]

theorem mem_resolveAll (h : resolveAll src version os = .ok nodes) (hn : node ∈ nodes) :
    ∃ o ∈ os, resolve src version o = .ok node := by
  rw [resolveAll_eq_filterMap h] at hn
  obtain ⟨o, ho, hnode⟩ := List.mem_filterMap.mp hn
  exact ⟨o, ho, toOption_eq_some.mp hnode⟩

theorem resolveAll_cons (h : resolve src version o = .ok node)
    (hrest : resolveAll src version os = .ok nodes) :
    resolveAll src version (o :: os) = .ok (node :: nodes) := by
  simp only [resolveAll, h, hrest]
  rfl

/-- The name of a function comes from the outline of a name, if it is kept at all. -/
theorem mem_resolveName {name : Option Outline} {name' : Option Node}
    (h : resolveName src version name = .ok name') (hn : node ∈ name') :
    ∃ o ∈ name, resolve src version o = .ok node := by
  cases name with
  | none =>
    cases h
    cases hn
  | some o =>
    simp only [resolveName] at h
    obtain ⟨node', hnode, h⟩ := exists_of_bind_ok h
    split at h <;> cases h
    · cases hn
      exact ⟨o, rfl, hnode⟩
    · cases hn

structure Resolves (src : Source) (version : String) (o : Outline) (node : Node) : Prop where
  placed : ∃ r, node.range? = some r ∧ place src o.span = .ok r
  named : ∀ id, node = .identifier id → o = .identifier o.span ∧ nameAt src o.span = .ok id
  parts : ∀ part ∈ node.parts, ∃ p ∈ o.parts, resolve src version p = .ok part
  walked : resolveAll src version o.walked = .ok node.walked

/-- Inverts the resolution of every kind of outline once, so that no other proof takes it apart. -/
theorem resolve_resolves (h : resolve src version o = .ok node) : Resolves src version o node := by
  cases o with
  | identifier span =>
    simp only [resolve] at h
    obtain ⟨id, hid, h⟩ := exists_of_bind_ok h
    cases h
    obtain ⟨range, hr, hname⟩ := exists_of_bind_ok hid
    cases hname
    refine ⟨⟨range, rfl, hr⟩, ?_, by simp [Node.parts], rfl⟩
    rintro id' ⟨⟩
    exact ⟨rfl, hid⟩
  | member base id indexer span =>
    simp only [resolve] at h
    obtain ⟨base', hbase, h⟩ := exists_of_bind_ok h
    obtain ⟨id', hid, h⟩ := exists_of_bind_ok h
    obtain ⟨range, hr, h⟩ := exists_of_bind_ok h
    cases h
    refine ⟨⟨range, rfl, hr⟩, by simp, ?_, rfl⟩
    intro part hp
    rcases List.mem_cons.mp hp with rfl | hp
    · exact ⟨base, List.mem_cons_self, hbase⟩
    · obtain rfl := List.mem_singleton.mp hp
      refine ⟨.identifier id, by simp [Outline.parts], ?_⟩
      simp only [resolve, hid]
      rfl
  | call base arguments span =>
    simp only [resolve] at h
    obtain ⟨arguments', hargs, h⟩ := exists_of_bind_ok h
    obtain ⟨base', hbase, h⟩ := exists_of_bind_ok h
    obtain ⟨range, hr, h⟩ := exists_of_bind_ok h
    cases h
    have hall := resolveAll_cons hbase hargs
    exact ⟨⟨range, rfl, hr⟩, by simp, fun part hp => mem_resolveAll hall hp, hall⟩
  | function name body isLocal span =>
    simp only [resolve] at h
    obtain ⟨name', hname, h⟩ := exists_of_bind_ok h
    obtain ⟨body', hbody, h⟩ := exists_of_bind_ok h
    obtain ⟨range, hr, h⟩ := exists_of_bind_ok h
    cases h
    refine ⟨⟨range, rfl, hr⟩, by simp, ?_, hbody⟩
    intro part hp
    rcases List.mem_append.mp hp with hp | hp
    · obtain ⟨o, ho, hpart⟩ := mem_resolveName hname (Option.mem_toList.mp hp)
      exact ⟨o, List.mem_append_left _ (Option.mem_toList.mpr ho), hpart⟩
    · obtain ⟨o, ho, hpart⟩ := mem_resolveAll hbody hp
      exact ⟨o, List.mem_append_right _ ho, hpart⟩
  | callStatement expression span =>
    simp only [resolve] at h
    obtain ⟨expression', he, h⟩ := exists_of_bind_ok h
    obtain ⟨range, hr, h⟩ := exists_of_bind_ok h
    cases h
    have hall : resolveAll src version [expression] = .ok [expression'] := resolveAll_cons he rfl
    exact ⟨⟨range, rfl, hr⟩, by simp, fun part hp => mem_resolveAll hall hp, hall⟩
  | block kind body span =>
    simp only [resolve] at h
    obtain ⟨body', hbody, h⟩ := exists_of_bind_ok h
    obtain ⟨range, hr, h⟩ := exists_of_bind_ok h
    cases h
    exact ⟨⟨range, rfl, hr⟩, by simp, fun part hp => mem_resolveAll hbody hp, hbody⟩
  | jump kind span =>
    simp only [resolve] at h
    split at h
    · cases h
    · obtain ⟨range, hr, h⟩ := exists_of_bind_ok h
      cases h
      exact ⟨⟨range, rfl, hr⟩, by simp, by simp [Node.parts], rfl⟩
  | unsupported kind span =>
    simp only [resolve] at h
    obtain ⟨range, hr, h⟩ := exists_of_bind_ok h
    cases h
    exact ⟨⟨range, rfl, hr⟩, by simp, by simp [Node.parts], rfl⟩

end Outline

end LuaSymbols
