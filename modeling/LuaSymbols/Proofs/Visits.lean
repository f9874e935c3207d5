import LuaSymbols.Walk
import Mathlib.Data.List.Basic

namespace LuaSymbols

namespace Node

def walked : Node → List Node
  | .chunk body | .function _ body _ _ | .block _ body _ => body
  | .callStatement expression _ => [expression]
  | .call base arguments _ => base :: arguments
  | .identifier _ | .member .. | .unsupported .. | .foreign => []

mutual

/-- The nodes that the walk reaches, each before those below it. -/
def visible : Node → List Node
  | .chunk body => .chunk body :: visibleOf body
  | .function name body isLocal range => .function name body isLocal range :: visibleOf body
  | .block kind body range => .block kind body range :: visibleOf body
  | .callStatement expression range => .callStatement expression range :: visible expression
  | .call base arguments range => .call base arguments range :: (visible base ++ visibleOf arguments)
  | .identifier id => [.identifier id]
  | .member base id indexer range => [.member base id indexer range]
  | .unsupported kind range => [.unsupported kind range]
  | .foreign => [.foreign]

def visibleOf : List Node → List Node
  | [] => []
  | node :: rest => visible node ++ visibleOf rest

end

theorem visibleOf_eq_flatMap (nodes : List Node) : visibleOf nodes = nodes.flatMap visible := by
  induction nodes with
  | nil => rfl
  | cons node rest ih => rw [visibleOf, ih, List.flatMap_cons]

theorem visible_eq (node : Node) : node.visible = node :: node.walked.flatMap visible := by
  cases node <;> simp [visible, walked, visibleOf_eq_flatMap]

def parts : Node → List Node
  | .chunk body | .block _ body _ => body
  | .function name body _ _ => name.toList ++ body
  | .callStatement expression _ => [expression]
  | .call base arguments _ => base :: arguments
  | .member base id _ _ => [base, .identifier id]
  | .identifier _ | .unsupported .. | .foreign => []

mutual

def nodes : Node → List Node
  | .chunk body => .chunk body :: nodesOf body
  | .function name body isLocal range =>
    .function name body isLocal range :: (nodesOfName name ++ nodesOf body)
  | .block kind body range => .block kind body range :: nodesOf body
  | .callStatement expression range => .callStatement expression range :: nodes expression
  | .call base arguments range => .call base arguments range :: (nodes base ++ nodesOf arguments)
  | .member base id indexer range =>
    .member base id indexer range :: (nodes base ++ [.identifier id])
  | .identifier id => [.identifier id]
  | .unsupported kind range => [.unsupported kind range]
  | .foreign => [.foreign]

def nodesOf : List Node → List Node
  | [] => []
  | node :: rest => nodes node ++ nodesOf rest

def nodesOfName : Option Node → List Node
  | none => []
  | some name => nodes name

end

theorem nodesOf_eq_flatMap (trees : List Node) : nodesOf trees = trees.flatMap nodes := by
  induction trees with
  | nil => rfl
  | cons node rest ih => rw [nodesOf, ih, List.flatMap_cons]

theorem nodes_eq (node : Node) : node.nodes = node :: node.parts.flatMap nodes := by
  cases node with
  | function name body isLocal range =>
    cases name <;> simp [nodes, parts, nodesOfName, nodesOf_eq_flatMap]
  | _ => simp [nodes, parts, nodesOf_eq_flatMap]

theorem mem_nodes_self (node : Node) : node ∈ node.nodes := by
  rw [nodes_eq]
  exact List.mem_cons_self

theorem mem_nodes_of_part {node part n : Node} (hp : part ∈ node.parts) (hn : n ∈ part.nodes) :
    n ∈ node.nodes := by
  rw [nodes_eq]
  exact List.mem_cons_of_mem _ (List.mem_flatMap.mpr ⟨part, hp, hn⟩)

theorem walked_subset_parts (node : Node) : node.walked ⊆ node.parts := by
  cases node <;> simp [walked, parts]

/-- One case for each kind of node; the name of a function is the only part that is not in a list of
its own. -/
theorem sizeOf_part {node part : Node} (h : part ∈ node.parts) : sizeOf part < sizeOf node := by
  cases node with
  | chunk body | block kind body range =>
    have hlt : sizeOf part < sizeOf body := List.sizeOf_lt_of_mem h
    simp +arith
    omega
  | function name body isLocal range =>
    rcases List.mem_append.mp h with h | h
    · obtain rfl := Option.mem_toList.mp h
      simp +arith
    · have hlt := List.sizeOf_lt_of_mem h
      simp +arith
      omega
  | callStatement expression range =>
    obtain rfl := List.mem_singleton.mp h
    simp +arith
  | call base arguments range =>
    rcases List.mem_cons.mp h with rfl | h
    · simp +arith
    · have hlt := List.sizeOf_lt_of_mem h
      simp +arith
      omega
  | member base id indexer range =>
    rcases List.mem_cons.mp h with rfl | h
    · simp +arith
    · obtain rfl := List.mem_singleton.mp h
      cases range
      simp +arith
  | _ => cases h

/-- What holds of a node if it holds of its parts holds of every node. -/
theorem parts_induction {P : Node → Prop} (h : ∀ node, (∀ part ∈ node.parts, P part) → P node)
    (node : Node) : P node :=
  h node fun part hp =>
    have := sizeOf_part hp
    parts_induction h part
termination_by sizeOf node

theorem visible_subset_nodes (node : Node) : node.visible ⊆ node.nodes := by
  induction node using parts_induction with
  | h node ih =>
    intro n hn
    rw [visible_eq] at hn
    rcases List.mem_cons.mp hn with rfl | hn
    · exact mem_nodes_self n
    · obtain ⟨part, hp, hn⟩ := List.mem_flatMap.mp hn
      have hpart := node.walked_subset_parts hp
      exact mem_nodes_of_part hpart (ih part hpart hn)

def mention? : Node → Option Occurrence
  | .identifier id => some ⟨id.name, "", id.range⟩
  | .member base id _ _ => some ⟨id.name, base.dotted, id.range⟩
  | _ => none

def declaration? (container : String) : Node → Option Symbol
  | .function name _ _ range =>
    (name.bind declaredName?).map fun declared => ⟨declared, .function, range, container⟩
  | _ => none

theorem container_of_declaration {container : String} {node : Node} {d : Symbol}
    (h : node.declaration? container = some d) : d.container = container := by
  cases node with
  | function name body isLocal range =>
    obtain ⟨declared, _, rfl⟩ := Option.map_eq_some_iff.mp h
    rfl
  | _ => cases h

def isNamedFunction : Node → Bool
  | .function (some name) _ _ _ => name.isName
  | _ => false

theorem isSome_declaration? (container : String) (node : Node) :
    (node.declaration? container).isSome = node.isNamedFunction := by
  cases node with
  | function name body isLocal range =>
    cases name with
    | none => rfl
    | some name => cases name <;> rfl
  | _ => rfl

def isFunction : Node → Bool
  | .function .. => true
  | _ => false

/-- The nodes that the walk reaches, in its order, each with all nodes above it, outermost first. -/
def trails (node : Node) : List (List Node × Node) :=
  ([], node) :: (node.walked.attach.flatMap fun ⟨part, _⟩ => part.trails).map
    fun (above, n) => (node :: above, n)
termination_by sizeOf node
decreasing_by exact sizeOf_part (node.walked_subset_parts ‹_›)

theorem trails_eq (node : Node) : node.trails =
    ([], node) :: (node.walked.flatMap trails).map fun (above, n) => (node :: above, n) := by
  rw [trails]
  simp

theorem map_snd_trails (node : Node) : node.trails.map Prod.snd = node.visible := by
  induction node using parts_induction with
  | h node ih =>
    rw [trails_eq, visible_eq, List.map_cons, List.map_map, List.map_flatMap]
    congr 1
    apply List.flatMap_congr
    intro part hp
    exact ih part (node.walked_subset_parts hp)

/-- The visits of the walk to a node and all below it, within some functions. Of the nodes above another
one only the functions count. -/
def visits (ancestors : List Node) (node : Node) : List Visit :=
  node.trails.map fun (above, n) => ⟨n, ancestors ++ above.filter isFunction⟩

theorem map_node_visits (ancestors : List Node) (node : Node) :
    (node.visits ancestors).map (·.node) = node.visible := by
  rw [visits, List.map_map, ← map_snd_trails]
  rfl

/-- The enclosing functions of a visit are those of the trail, kept from the top down. -/
theorem visits_eq (ancestors : List Node) (node : Node) :
    node.visits ancestors = ⟨node, ancestors⟩ ::
      node.walked.flatMap (visits (ancestors ++ [node].filter isFunction)) := by
  rw [visits, trails_eq, List.map_cons, List.map_map, List.map_flatMap]
  congr 1
  · simp
  · apply List.flatMap_congr
    intro part _
    apply List.map_congr_left
    rintro ⟨above, n⟩ _
    cases h : node.isFunction <;> simp [h]

end Node

namespace Findings

variable {container : String}

/-- What the visit to one node adds. A foreign node has nothing to add. -/
def enter (container : String) (found : Findings) (v : Visit) : Except Fault Findings :=
  match v.node with
  | .foreign => .error .foreignNode
  | node => .ok
    { occurrences := found.occurrences ++ node.mention?.toArray
      symbols := found.symbols ++ (node.declaration? container).toArray
      visits := found.visits.push v }

theorem enter_ok {v : Visit} (h : v.node ≠ .foreign) (found : Findings) :
    found.enter container v = .ok
      { occurrences := found.occurrences ++ v.node.mention?.toArray
        symbols := found.symbols ++ (v.node.declaration? container).toArray
        visits := found.visits.push v } := by
  unfold enter
  split
  · contradiction
  · rfl

/-- One foreign node among the visits stops the walk, and always with the same fault. -/
theorem foldlM_enter_error {visits : List Visit} (h : .foreign ∈ visits.map (·.node))
    (found : Findings) : visits.foldlM (enter container) found = .error .foreignNode := by
  induction visits generalizing found with
  | nil => cases h
  | cons v rest ih =>
    rw [List.foldlM_cons]
    by_cases hv : v.node = .foreign
    · simp only [enter, hv]
      rfl
    · rw [enter_ok hv]
      refine ih ?_ _
      rcases List.mem_cons.mp h with h | h
      · exact absurd h.symm hv
      · exact h

/-- The later findings have, beside the earlier ones, the visits and what their nodes mention and
declare. -/
structure Gains (container : String) (found : Findings) (more : List Visit) (found' : Findings) :
    Prop where
  visits : found'.visits.toList = found.visits.toList ++ more
  occurrences : found'.occurrences.toList =
    found.occurrences.toList ++ (more.map (·.node)).filterMap Node.mention?
  symbols : found'.symbols.toList =
    found.symbols.toList ++ (more.map (·.node)).filterMap (Node.declaration? container)

/-- Without a foreign node all visits are entered, and the findings grow at their ends only. -/
theorem foldlM_enter_ok {visits : List Visit} (h : .foreign ∉ visits.map (·.node)) (found : Findings) :
    ∃ found', visits.foldlM (enter container) found = .ok found' ∧
      found.Gains container visits found' := by
  induction visits generalizing found with
  | nil => exact ⟨found, rfl, by simp, by simp, by simp⟩
  | cons v rest ih =>
    simp only [List.map_cons, List.mem_cons, not_or] at h
    rw [List.foldlM_cons, enter_ok (Ne.symm h.1)]
    obtain ⟨found', hrest, hgains⟩ := ih h.2
      { occurrences := found.occurrences ++ v.node.mention?.toArray
        symbols := found.symbols ++ (v.node.declaration? container).toArray
        visits := found.visits.push v }
    refine ⟨found', hrest, ?_, ?_, ?_⟩
    · simp [hgains.visits]
    · cases hm : v.node.mention? <;> simp [hgains.occurrences, hm]
    · cases hd : v.node.declaration? container <;> simp [hgains.symbols, hd]

end Findings

namespace Node

variable {container : String}

/-- What the walk does at a node, before it goes on to the parts. -/
theorem collect_step (ancestors : List Node) (found : Findings) (node : Node) :
    collect container ancestors found node =
      found.enter container ⟨node, ancestors⟩ >>= fun found =>
        collectAll container (ancestors ++ [node].filter isFunction) found node.walked := by
  cases node with
  | function name body isLocal range =>
    have hself : [function name body isLocal range].filter isFunction =
        [function name body isLocal range] := rfl
    rw [hself]
    cases h : name.bind declaredName? <;>
      simp [collect, Findings.enter, Findings.visit, Findings.declare, walked, mention?,
        declaration?, h, bind, Except.bind]
  | callStatement expression range =>
    have hone (found : Findings) : collectAll container ancestors found [expression] =
        collect container ancestors found expression := bind_pure _
    simp [collect, Findings.enter, Findings.visit, walked, mention?, declaration?, isFunction, hone,
      bind, Except.bind]
  | _ =>
    simp [collect, collectAll, Findings.enter, Findings.visit, Findings.mention, walked, mention?,
      declaration?, isFunction, bind, Except.bind]

/-- The list case of the next theorem, from the nodes of the list. -/
theorem collectAll_eq_foldlM {ancestors : List Node} {nodes : List Node}
    (h : ∀ node ∈ nodes, ∀ found, collect container ancestors found node =
      (node.visits ancestors).foldlM (Findings.enter container) found) (found : Findings) :
    collectAll container ancestors found nodes =
      (nodes.flatMap (visits ancestors)).foldlM (Findings.enter container) found := by
  induction nodes generalizing found with
  | nil => rfl
  | cons node rest ih =>
    rw [List.forall_mem_cons] at h
    rw [collectAll, List.flatMap_cons, List.foldlM_append, h.1]
    congr 1
    funext found'
    exact ih h.2 found'

/-- The walk is one loop over its visits. -/
theorem collect_eq_foldlM (node : Node) (ancestors : List Node) (found : Findings) :
    collect container ancestors found node =
      (node.visits ancestors).foldlM (Findings.enter container) found := by
  induction node using parts_induction generalizing ancestors found with
  | h node ih =>
    rw [collect_step, visits_eq, List.foldlM_cons]
    congr 1
    funext found'
    refine collectAll_eq_foldlM ?_ found'
    intro part hp found
    exact ih part (node.walked_subset_parts hp) _ found

theorem walk_error {node : Node} (h : .foreign ∈ node.visible) (container : String) :
    node.walk container = .error .foreignNode := by
  rw [walk, collect_eq_foldlM]
  rw [← map_node_visits []] at h
  exact Findings.foldlM_enter_error h .empty

theorem walk_ok {node : Node} (h : .foreign ∉ node.visible) (container : String) :
    ∃ found, node.walk container = .ok found ∧
      Findings.empty.Gains container (node.visits []) found := by
  rw [walk, collect_eq_foldlM]
  rw [← map_node_visits []] at h
  exact Findings.foldlM_enter_ok h .empty

/-- A walk that comes to its end has found what the nodes on its way mention and declare, in order. -/
theorem walk_findings {node : Node} {container : String} {found : Findings}
    (h : node.walk container = .ok found) :
    found.occurrences.toList = node.visible.filterMap mention? ∧
      found.symbols.toList = node.visible.filterMap (declaration? container) := by
  by_cases hforeign : .foreign ∈ node.visible
  · rw [walk_error hforeign] at h
    cases h
  · obtain ⟨found', hwalk, hgains⟩ := walk_ok hforeign container
    rw [hwalk] at h
    cases h
    rw [hgains.occurrences, hgains.symbols, map_node_visits]
    exact ⟨rfl, rfl⟩

/-- A chain of members that starts with a name: that name, and each further one after its indexer. -/
def chain? : Node → Option (String × List (String × String))
  | .identifier id => some (id.name, [])
  | .member base id indexer _ =>
    base.chain?.map fun (first, more) => (first, more ++ [(indexer, id.name)])
  | _ => none

/-- The names of a chain with their indexers between them. Without a first name there is no text. -/
def chainText (node : Node) : String :=
  match node.chain? with
  | some (first, more) =>
    if first = "" then "" else more.foldl (fun text (indexer, name) => text ++ indexer ++ name) first
  | none => ""

theorem foldl_links_ne {first : String} (h : first ≠ "") (more : List (String × String)) :
    more.foldl (fun text (indexer, name) => text ++ indexer ++ name) first ≠ "" := by
  induction more generalizing first with
  | nil => exact h
  | cons link more ih =>
    apply ih
    simp [h]

/-- The text in front of a member, built from the inside out, is the chain read from
left to right. -/
theorem dotted_eq_chainText (node : Node) : node.dotted = node.chainText := by
  match node with
  | .identifier id => by_cases h : id.name = "" <;> simp [dotted, chainText, chain?, h]
  | .member base id indexer range =>
    simp only [dotted, dotted_eq_chainText base, chainText, chain?]
    cases base.chain? with
    | none => rfl
    | some chain =>
      by_cases h : chain.1 = ""
      · simp [h]
      · have hfront := foldl_links_ne h chain.2
        simp [h, hfront]
  | .chunk _ | .call .. | .function .. | .callStatement .. | .block .. | .unsupported .. | .foreign =>
    rfl

/-- The mention that a node is: a plain name, or the last name of a chain after the text of the rest. -/
def spelled? : Node → Option Occurrence
  | .identifier id => some ⟨id.name, "", id.range⟩
  | .member base id _ _ => some ⟨id.name, base.chainText, id.range⟩
  | _ => none

theorem mention?_eq_spelled? (node : Node) : node.mention? = node.spelled? := by
  cases node with
  | member base id indexer range => rw [mention?, spelled?, dotted_eq_chainText]
  | _ => rfl

/-- The course of a walk. It visits the nodes in reach, each before those below it and from left to right,
and knows the functions around each of them; only a node of an unknown kind stops it. What it finds is
what the visited nodes mention and declare, in that order. -/
theorem walk_course (node : Node) (container : String) :
    (node.walk container = .error .foreignNode ↔ .foreign ∈ node.visible) ∧
    (.foreign ∉ node.visible → ∃ found, node.walk container = .ok found ∧
      found.visits.toList.map (·.node) = node.visible ∧
      found.visits.toList = node.trails.map (fun (above, n) => ⟨n, above.filter isFunction⟩) ∧
      found.occurrences.toList = node.visible.filterMap spelled? ∧
      found.symbols.toList = node.visible.filterMap (declaration? container)) := by
  have hends : .foreign ∉ node.visible → ∃ found, node.walk container = .ok found ∧
      found.visits.toList = node.visits [] := by
    intro h
    obtain ⟨found, hwalk, hgains⟩ := walk_ok h container
    exact ⟨found, hwalk, hgains.visits⟩
  refine ⟨⟨?_, fun h => walk_error h container⟩, ?_⟩
  · intro hwalk
    by_contra h
    obtain ⟨found, hfound, _⟩ := hends h
    rw [hfound] at hwalk
    cases hwalk
  · intro h
    obtain ⟨found, hwalk, hvisits⟩ := hends h
    obtain ⟨hoccurrences, hsymbols⟩ := walk_findings hwalk
    refine ⟨found, hwalk, ?_, ?_, ?_, hsymbols⟩
    · rw [hvisits, map_node_visits]
    · exact hvisits
    · rw [hoccurrences, funext mention?_eq_spelled?]

end Node

end LuaSymbols
