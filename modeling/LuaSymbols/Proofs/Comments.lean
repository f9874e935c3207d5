import LuaSymbols.Proofs.Cursor
import LuaSymbols.Proofs.Shapes
import Mathlib.Data.List.Find

namespace LuaSymbols

def Label.isComment (l : Label) : Bool := l.kind == "comment"

namespace Reading

def code (children : List Reading) : List Reading := children.filter fun c => !c.label.isComment

def PlainComments (children : List Reading) : Prop :=
  ∀ c ∈ children, c.label.isComment = true → c.label.field = none

variable {label : Label} {children : List Reading}

theorem child?_code (h : PlainComments children) (field : String) :
    child? (code children) field = child? children field := by
  rw [child?, code, List.find?_filter, child?]
  apply List.find?_congr
  intro c hc
  rw [Bool.eq_iff_iff]
  cases hcomment : c.label.isComment with
  | false => simp
  | true => simp [h c hc hcomment]

theorem ofKind?_code {kind : String} (hkind : kind ≠ "comment") :
    ofKind? (code children) kind = ofKind? children kind := by
  rw [ofKind?, code, List.find?_filter, ofKind?]
  apply List.find?_congr
  intro c _
  by_cases hc : c.label.kind = kind <;> simp [Label.isComment, hc, hkind]

theorem statementsOf_code : statementsOf (code children) = statementsOf children := by
  simp only [statementsOf, named, code, List.filter_filter]
  congr 1
  apply List.filter_congr
  intro c _
  cases hc : c.label.kind == "comment" <;> simp [Label.isComment, isRemark, hc]

theorem expressionsOf_code : expressionsOf (code children) = expressionsOf children := by
  simp only [expressionsOf, named, code, List.filter_filter]
  congr 1
  apply List.filter_congr
  intro c _
  cases hc : c.label.kind == "comment" <;> simp [Label.isComment, bne, hc]

theorem bodyIn_code (h : PlainComments children) (field : String) :
    bodyIn (code children) field = bodyIn children field := by
  rw [bodyIn, child?_code h, ofKind?_code (by decide), bodyIn]

theorem alternatives_code (h : PlainComments children) :
    alternatives (code children) = alternatives children := by
  simp only [alternatives, code, List.filter_filter]
  congr 1
  apply List.filter_congr
  intro c hc
  cases hcomment : c.label.isComment with
  | false => simp
  | true => simp [h c hc hcomment]

/-- A call falls back on its first named child, which may be a comment; hence the condition that its
callee has a role. -/
theorem callOf_code (h : PlainComments children) (hname : (child? children "name").isSome = true) :
    callOf label (code children) = callOf label children := by
  obtain ⟨name, hname⟩ := Option.isSome_iff_exists.mp hname
  simp only [callOf, child?_code h, ofKind?_code (show "arguments" ≠ "comment" by decide), hname,
    Option.some_or]

theorem memberOf_code (h : PlainComments children) (field indexer : String) :
    memberOf label (code children) field indexer = memberOf label children field indexer := by
  rw [memberOf, child?_code h, child?_code h, memberOf]

theorem functionOf_code (h : PlainComments children) :
    functionOf label (code children) = functionOf label children := by
  have hlocal : (code children).any (fun c => c.label.kind == "local") =
      children.any fun c => c.label.kind == "local" := by
    rw [code, List.any_filter]
    congr 1
    funext c
    by_cases hc : c.label.kind = "local" <;> simp [Label.isComment, hc]
  rw [functionOf, hlocal, child?_code h, bodyIn_code h, functionOf]

def NamedCall (label : Label) (children : List Reading) : Prop :=
  label.kind = "function_call" → (child? children "name").isSome = true

theorem statementOf_code (h : PlainComments children) (hcall : NamedCall label children) :
    statementOf label (code children) = statementOf label children := by
  unfold statementOf
  split
  iterate 2
    · exact functionOf_code h
  · rename_i hkind
    rw [callOf_code h (hcall hkind)]
  iterate 4
    · rw [bodyIn_code h]
  · rw [bodyIn_code h, alternatives_code h]
  all_goals rfl

theorem expressionOf_code (h : PlainComments children) (hcall : NamedCall label children) :
    expressionOf label (code children) = expressionOf label children := by
  unfold expressionOf
  split
  · rfl
  · rename_i hkind
    exact callOf_code h (hcall hkind)
  · exact memberOf_code h "field" "."
  · exact memberOf_code h "method" ":"
  · rw [bodyIn_code h]
  · rw [expressionsOf_code]
  · rfl

theorem ofNode_code (h : PlainComments children) (hcall : NamedCall label children) :
    ofNode label (code children) = ofNode label children := by
  simp only [ofNode, statementOf_code h hcall, expressionOf_code h hcall, statementsOf_code,
    expressionsOf_code, bodyIn_code h]

end Reading

namespace ParseTree

mutual

/-- The tree without the comments below its root. -/
def uncommented : ParseTree → ParseTree
  | .node label children => .node label (uncommentedAll children)

def uncommentedAll : List ParseTree → List ParseTree
  | [] => []
  | t :: rest =>
    if t.label.isComment then uncommentedAll rest else uncommented t :: uncommentedAll rest

end

/-- No comment has a role, and what is called has one. -/
@[mk_iff]
structure PlainlyCommented (n : ParseTree) : Prop where
  comment : n.label.isComment = true → n.label.field = none
  call : n.label.kind = "function_call" → (n.child? "name").isSome = true

instance (n : ParseTree) : Decidable n.PlainlyCommented := decidable_of_iff' _ (plainlyCommented_iff n)

theorem label_uncommented (t : ParseTree) : t.uncommented.label = t.label := by
  cases t
  rfl

theorem mem_nodesOf {t : ParseTree} {ts : List ParseTree} (h : t ∈ ts) : t ∈ nodesOf ts := by
  induction ts with
  | nil => cases h
  | cons u rest ih =>
    rw [nodesOf, List.mem_append]
    rcases List.mem_cons.mp h with rfl | h
    · cases t
      exact .inl List.mem_cons_self
    · exact .inr (ih h)

theorem plainComments_readings {ts : List ParseTree} (h : ∀ n ∈ nodesOf ts, n.PlainlyCommented) :
    Reading.PlainComments (readings ts) := by
  intro r hr
  rw [readings_eq_map] at hr
  obtain ⟨t, ht, rfl⟩ := List.mem_map.mp hr
  rw [label_reading]
  exact (h t (mem_nodesOf ht)).comment

mutual

/-- With the next theorem by induction over the tree: comments go at every level at once. -/
theorem reading_uncommented (t : ParseTree) (h : ∀ n ∈ t.nodes, n.PlainlyCommented) :
    t.uncommented.reading = t.reading := by
  match t with
  | .node label children =>
    simp only [nodes, List.mem_cons, forall_eq_or_imp] at h
    rw [uncommented, reading, readings_uncommentedAll children h.2, reading]
    apply Reading.ofNode_code (plainComments_readings h.2)
    intro hkind
    rw [child?_readings, Option.isSome_map]
    exact h.1.call hkind

theorem readings_uncommentedAll (ts : List ParseTree) (h : ∀ n ∈ nodesOf ts, n.PlainlyCommented) :
    readings (uncommentedAll ts) = Reading.code (readings ts) := by
  match ts with
  | [] => rfl
  | t :: rest =>
    simp only [nodesOf, List.mem_append] at h
    have hrest := readings_uncommentedAll rest fun n hn => h n (.inr hn)
    rw [uncommentedAll, readings, Reading.code, List.filter_cons, label_reading]
    cases t.label.isComment with
    | true => simpa [Reading.code] using hrest
    | false =>
      simpa [readings, Reading.code] using
        ⟨reading_uncommented t fun n hn => h n (.inl hn), hrest⟩

end

def parser (t : ParseTree) (version : String) : Parser := fun text =>
  text.parseWith version fun _ => some t

/-- A tree without errors is lowered as the same tree without comments is, be it to a document, to a jump
that is refused or to a broken rule, and so a text has the same index with and without them. -/
theorem lower_uncommented (tree : ParseTree) (version : String) (herror : tree.label.faulty = false)
    (h : ∀ n ∈ tree.nodes, n.PlainlyCommented) :
    (∀ src, tree.uncommented.lower src version = tree.lower src version) ∧
    ∀ text, tree.uncommented.parser version text = tree.parser version text ∧
      ∀ f : FileIndex, f.rebuild text (tree.uncommented.parser version) =
        f.rebuild text (tree.parser version) := by
  have hlower (src : Source) : tree.uncommented.lower src version = tree.lower src version := by
    simp only [lower, label_uncommented, herror, Bool.false_eq_true, ↓reduceIte, outline,
      reading_uncommented tree h]
  have hparser (text : Text) :
      tree.uncommented.parser version text = tree.parser version text := by
    simp only [parser, Text.parseWith, hlower]
  refine ⟨hlower, fun text => ⟨hparser text, fun f => ?_⟩⟩
  simp only [FileIndex.rebuild, hparser]

/-- A comment behind what is called, two within parentheses, and one after everything. -/
def remarked : List Char := "f--a\n((--b\ng--c\n))--d".toList

def remarkedPart (kind : String) (field : Option String) (named : Bool) (start stop : Nat)
    (children : List ParseTree) : ParseTree :=
  .make kind field named false ⟨.after (remarked.take start), .after (remarked.take stop)⟩ children

def remarkedTree : ParseTree :=
  let token (kind : String) (start : Nat) := remarkedPart kind none false start (start + 1) []
  let remark (start stop : Nat) := remarkedPart "comment" none true start stop
    [remarkedPart "comment_content" (some "content") true (start + 2) stop []]
  remarkedPart "chunk" none true 0 21
    [remarkedPart "function_call" none true 0 18
      [remarkedPart "identifier" (some "name") true 0 1 [], remark 1 4,
       remarkedPart "arguments" (some "arguments") true 5 18
        [token "(" 5,
         remarkedPart "parenthesized_expression" none true 6 17
          [token "(" 6, remark 7 10, remarkedPart "identifier" none true 11 12 [], remark 12 15,
           token ")" 16],
         token ")" 17]],
     remark 18 21]

/-- Comments in a call, between its parts and inside parentheses. -/
theorem lower_uncommented_remarked :
    remarkedTree.label.faulty = false ∧ (∀ n ∈ remarkedTree.nodes, n.PlainlyCommented) ∧
    remarkedTree.nodes.countP (fun n => n.label.isComment) = 4 ∧
    remarkedTree.uncommented.nodes.countP (fun n => n.label.isComment) = 0 ∧
    ∃ f, (FileIndex.new "a").rebuild (.ofChars remarked) (remarkedTree.parser "5.4") = .ok (f, none) ∧
      (FileIndex.new "a").rebuild (.ofChars remarked) (remarkedTree.uncommented.parser "5.4") =
        .ok (f, none) ∧
      f.occurrences.map (fun o => (o.name, o.range.start)) = [("f", ⟨0, 0⟩), ("g", ⟨2, 0⟩)] := by
  have hchecked : remarkedTree.label.faulty = false ∧ (∀ n ∈ remarkedTree.nodes, n.PlainlyCommented) ∧
      remarkedTree.nodes.countP (fun n => n.label.isComment) = 4 ∧
      remarkedTree.uncommented.nodes.countP (fun n => n.label.isComment) = 0 ∧
      ((FileIndex.new "a").rebuild (.ofChars remarked) (remarkedTree.parser "5.4")).toOption.map
        (fun r => (r.1.occurrences.map fun o => (o.name, o.range.start), r.2)) =
          some ([("f", ⟨0, 0⟩), ("g", ⟨2, 0⟩)], none) := by decide +kernel
  obtain ⟨herror, h, hmany, hnone, hfound⟩ := hchecked
  refine ⟨herror, h, hmany, hnone, ?_⟩
  obtain ⟨_, hsame⟩ := lower_uncommented remarkedTree "5.4" herror h
  rw [(hsame (.ofChars remarked)).2 (.new "a")]
  cases hrebuild : (FileIndex.new "a").rebuild (.ofChars remarked) (remarkedTree.parser "5.4") with
  | error fault =>
    rw [hrebuild] at hfound
    cases hfound
  | ok r =>
    obtain ⟨f, failure⟩ := r
    rw [hrebuild] at hfound
    obtain ⟨hoccurrences, rfl⟩ := Prod.mk.inj (Option.some.inj hfound)
    exact ⟨f, rfl, rfl, hoccurrences⟩

end ParseTree

end LuaSymbols
