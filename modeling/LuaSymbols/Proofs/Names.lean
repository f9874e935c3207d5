import LuaSymbols.Proofs.Cursor
import LuaSymbols.Proofs.Resolution
import LuaSymbols.Proofs.Shapes

namespace LuaSymbols

/-- The stretch of a line that the columns of a range cut out. Only line feeds end a line. -/
def Range.cut? (range : Range) (cs : List Char) : Option String :=
  (cs.splitOn '\n')[range.start.line.toNat]?.map fun line =>
    String.ofList (line.extract range.start.column.toNat range.stop.column.toNat)

theorem modifyHead_nil_append (lines : List (List Char)) : lines.modifyHead ([] ++ ·) = lines := by
  cases lines <;> rfl

/-- Characters without a line feed only lengthen the first line of what follows them. -/
theorem splitOn_append_of_notMem {mid : List Char} (h : '\n' ∉ mid) (rest : List Char) :
    (mid ++ rest).splitOn '\n' = (rest.splitOn '\n').modifyHead (mid ++ ·) := by
  induction mid with
  | nil => exact (modifyHead_nil_append _).symm
  | cons c mid ih =>
    rw [List.mem_cons, not_or] at h
    have hc : ¬ (c == '\n') = true := by simpa using Ne.symm h.1
    rw [List.cons_append, List.splitOn_cons_eq_if_modifyHead, if_neg hc, ih h.2,
      List.modifyHead_modifyHead]
    rfl

/-- The position after some characters tells the line that the next ones go to, and how much of that line
is already there. -/
theorem Position.after_line (front rest : List Char) : ∃ line,
    Position.after front = ⟨front.count '\n', line.length⟩ ∧
    ((front ++ rest).splitOn '\n').drop (front.count '\n') =
      (rest.splitOn '\n').modifyHead (line ++ ·) := by
  induction front using List.reverseRecOn generalizing rest with
  | nil => exact ⟨[], rfl, (modifyHead_nil_append _).symm⟩
  | append_singleton front c ih =>
    obtain ⟨line, hposition, hline⟩ := ih (c :: rest)
    rw [Position.after_append, hposition, List.append_assoc, List.singleton_append, List.count_append,
      List.count_singleton]
    rw [List.splitOn_cons_eq_if_modifyHead] at hline
    by_cases hc : c = '\n'
    · subst hc
      refine ⟨[], by simp [Text.advance], ?_⟩
      rw [if_pos (by simp), List.modifyHead_cons] at hline
      rw [if_pos (by simp), ← List.drop_drop, hline, modifyHead_nil_append]
      rfl
    · refine ⟨line ++ [c], by simp [Text.advance, hc], ?_⟩
      rw [if_neg (by simpa using hc), List.modifyHead_modifyHead] at hline
      rw [if_neg (by simpa using hc), Nat.add_zero, hline]
      simp [Function.comp_def]

theorem Point.offset_after (front : List Char) :
    (Point.after front).offset = (Utf8.encode front).length := by
  obtain ⟨_, _, _, hoffset, _⟩ := Point.after_lastLine front
  exact hoffset

/-- What a span between two places covers is the text between them, whatever its width in bytes. -/
theorem Source.text_between (front mid rest : List Char) :
    (Source.ofChars (front ++ mid ++ rest)).text ⟨.after front, .after (front ++ mid)⟩ =
      String.ofList mid := by
  rw [Source.text, Source.chars, Point.offset_after, Point.offset_after, Utf8.encode_append,
    List.length_append, Source.slice_between]

/-- Between two positions on one line stands what their columns cut out of the line. -/
theorem Position.after_between {front mid : List Char} (rest : List Char)
    (h : (Position.after front).line = (Position.after (front ++ mid)).line) : ∃ line,
    ((front ++ mid ++ rest).splitOn '\n')[(Position.after front).line.toNat]? = some line ∧
    line.extract (Position.after front).column.toNat (Position.after (front ++ mid)).column.toNat =
      mid := by
  obtain ⟨line, hposition, hline⟩ := Position.after_line front (mid ++ rest)
  obtain ⟨line', hposition', hline'⟩ := Position.after_line (front ++ mid) rest
  obtain ⟨end', more, hrest⟩ := List.exists_cons_of_ne_nil (List.splitOn_ne_nil '\n' rest)
  have hcount : (front ++ mid).count '\n' = front.count '\n' := by
    rw [hposition, hposition'] at h
    exact (Int.ofNat.inj h).symm
  have hmid : '\n' ∉ mid := by
    rw [List.count_append] at hcount
    exact List.count_eq_zero.mp (by omega)
  rw [splitOn_append_of_notMem hmid, hrest, ← List.append_assoc] at hline
  rw [hcount, hline, hrest] at hline'
  -- Both ends see the same line: up to the second it is what was there at the first, and the rest.
  have hsame : line' = line ++ mid := by
    have hheads : line ++ (mid ++ end') = line' ++ end' := (List.cons.inj hline').1
    rw [← List.append_assoc] at hheads
    exact (List.append_cancel_right hheads).symm
  refine ⟨line ++ (mid ++ end'), ?_, ?_⟩
  · rw [hposition, ← List.head?_drop]
    exact congrArg List.head? hline
  · simp only [hposition, hposition', hsame, Int.toNat_natCast, List.extract_eq_take_drop]
    simp

/-- The text of a span on one line, cut out by bytes, is what the columns of its range cut out. -/
theorem Outline.cut_place {cs : List Char} {span : Span} {range : Range} (hstart : span.start.In cs)
    (hstop : span.stop.In cs) (hrow : span.start.row = span.stop.row)
    (hr : place (.ofChars cs) span = .ok range) :
    range.cut? cs = some ((Source.ofChars cs).text span) := by
  obtain ⟨hfrom, hto⟩ := place_bounds hr
  have hforward : span.start.offset ≤ span.stop.offset := by
    -- A span that ends before it starts has no range.
    by_contra hlt
    have hback := Source.position_lt hstop hstart (Nat.lt_of_not_le hlt)
    rw [← hfrom, ← hto] at hback
    exact Position.not_lt.mpr range.start_le_stop hback
  have hlines : range.start.line = range.stop.line := by
    rw [hfrom, hto]
    exact congrArg Int.ofNat hrow
  obtain ⟨start, stop⟩ := span
  obtain ⟨front, mid, rfl, rfl, rest, rfl⟩ := hstart.cases hstop hforward
  rw [Source.position_after ⟨mid ++ rest, (List.append_assoc ..).symm⟩] at hfrom
  rw [Source.position_after ⟨rest, rfl⟩] at hto
  rw [hfrom, hto] at hlines
  obtain ⟨line, hline, hcut⟩ := Position.after_between rest hlines
  rw [Range.cut?, hfrom, hto, hline, Option.map_some, hcut, Source.text_between]

/-- Every name in the outline, however deep, has its place among the given ones. -/
inductive Outline.Named (P : Span → Prop) : Outline → Prop
  | intro {o : Outline} : (∀ span, o = .identifier span → P span) →
      (∀ part ∈ o.parts, part.Named P) → Named P o

theorem Outline.Named.leaf {P : Span → Prop} {o : Outline} (hname : ∀ span, o ≠ .identifier span)
    (hparts : o.parts = []) : o.Named P :=
  .intro (fun span h => absurd h (hname span)) (by simp [hparts])

def Outline.Demands.names (P : Span → Prop) : Demands :=
  ⟨fun _ => True, P, fun _ => True, fun _ => True⟩

/-- Of the demands on an outline only those on names matter here. -/
theorem Outline.Shaped.named {P : Span → Prop} {role : Role} {o : Outline}
    (h : o.Shaped (.names P) role) : o.Named P := by
  induction h with
  | identifier _ hname =>
    refine .intro ?_ nofun
    rintro span ⟨⟩
    exact hname
  | member _ _ _ hname ih =>
    refine .intro nofun ?_
    intro part hp
    rcases List.mem_cons.mp hp with rfl | hp
    · exact ih
    · obtain rfl := List.mem_singleton.mp hp
      refine .intro ?_ nofun
      rintro span ⟨⟩
      exact hname
  | call _ _ _ ihBase ihArguments =>
    refine .intro nofun ?_
    intro part hp
    rcases List.mem_cons.mp hp with rfl | hp
    · exact ihBase
    · exact ihArguments part hp
  | function _ _ _ _ ihName ihBody =>
    refine .intro nofun ?_
    intro part hp
    rcases List.mem_append.mp hp with hp | hp
    · exact ihName part (Option.mem_toList.mp hp)
    · exact ihBody part hp
  | callStatement _ _ ih =>
    refine .intro nofun ?_
    intro part hp
    obtain rfl := List.mem_singleton.mp hp
    exact ih
  | block _ _ ih => exact .intro nofun ih
  | jump _ _ _ => exact .leaf nofun rfl
  | unsupported _ _ => exact .leaf nofun rfl

/-- Every name in the tree of an outline was cut out at a place of a name in the outline. -/
theorem Outline.Named.identifier {P : Span → Prop} {src : Source} {version : String} {o : Outline}
    {node : Node} (h : o.Named P) (hr : resolve src version o = .ok node) {id : Identifier}
    (hid : .identifier id ∈ node.nodes) : ∃ span, P span ∧ nameAt src span = .ok id := by
  induction h generalizing node with
  | intro hname _ ih =>
    have hnode := resolve_resolves hr
    rw [Node.nodes_eq] at hid
    rcases List.mem_cons.mp hid with hself | hid
    · obtain ⟨ho, hat⟩ := hnode.named id hself.symm
      exact ⟨_, hname _ ho, hat⟩
    · obtain ⟨part, hp, hid⟩ := List.mem_flatMap.mp hid
      obtain ⟨p, hp, hpart⟩ := hnode.parts part hp
      exact ih p hp hpart hid

namespace Node

theorem nodes_trans {node inner : Node} (h : inner ∈ node.nodes) : inner.nodes ⊆ node.nodes := by
  induction node using parts_induction with
  | h node ih =>
    intro n hn
    rw [nodes_eq] at h
    rcases List.mem_cons.mp h with rfl | h
    · exact hn
    · obtain ⟨part, hp, h⟩ := List.mem_flatMap.mp h
      exact mem_nodes_of_part hp (ih part hp h hn)

/-- A mention is of a name in the tree. -/
theorem identifier_of_mention {node : Node} {o : Occurrence} (h : node.mention? = some o) :
    ∃ id, .identifier id ∈ node.nodes ∧ o.name = id.name ∧ o.range = id.range := by
  cases node with
  | identifier id =>
    cases h
    exact ⟨id, mem_nodes_self _, rfl, rfl⟩
  | member base id indexer range =>
    cases h
    exact ⟨id, mem_nodes_of_part (by simp [parts]) (mem_nodes_self _), rfl, rfl⟩
  | _ => cases h

theorem identifier_of_walk {node : Node} {container : String} {found : Findings}
    (h : node.walk container = .ok found) {o : Occurrence} (ho : o ∈ found.occurrences) :
    ∃ id, .identifier id ∈ node.nodes ∧ o.name = id.name ∧ o.range = id.range := by
  rw [← Array.mem_toList_iff, (walk_findings h).1] at ho
  obtain ⟨n, hn, hmention⟩ := List.mem_filterMap.mp ho
  obtain ⟨id, hid, hname, hrange⟩ := identifier_of_mention hmention
  exact ⟨id, nodes_trans (node.visible_subset_nodes hn) hid, hname, hrange⟩

end Node

/-- Both ends of the node are places in the text, and a name does not go on to the next line. -/
@[mk_iff]
structure Label.Anchored (cs : List Char) (l : Label) : Prop where
  start : l.span.start.In cs
  stop : l.span.stop.In cs
  oneLine : l.isNamePlace = true → l.span.start.row = l.span.stop.row

instance (cs : List Char) (l : Label) : Decidable (l.Anchored cs) :=
  decidable_of_iff' _ (l.anchored_iff cs)

/-- Every name in the tree of a document, and with it every mention, is the text that its range cuts out
of its line. -/
theorem ParseTree.lower_names (cs : List Char) (version : String) (tree : ParseTree)
    (herror : tree.label.faulty = false) (ha : ∀ n ∈ tree.nodes, n.label.Anchored cs)
    (chunk : Node) (hchunk : tree.lower (.ofChars cs) version = .ok chunk) :
    (∀ id, .identifier id ∈ chunk.nodes → id.range.cut? cs = some id.name) ∧
    ∀ container, ∃ found, chunk.walk container = .ok found ∧
      ∀ o ∈ found.occurrences, o.range.cut? cs = some o.name := by
  have hnames : ∀ id, .identifier id ∈ chunk.nodes → id.range.cut? cs = some id.name := by
    intro id hid
    -- Names stand in one line of the text; nothing is asked of any other place.
    let P (span : Span) := span.start.In cs ∧ span.stop.In cs ∧ span.start.row = span.stop.row
    have hnamed : ∀ o ∈ tree.outline, o.Named P := by
      intro o ho
      refine (outline_shaped ?_ o ho).named
      intro n hn
      have hplace (h : n.label.isNamePlace = true) : P n.label.span :=
        ⟨(ha n hn).start, (ha n hn).stop, (ha n hn).oneLine h⟩
      exact ⟨⟨trivial, hplace, fun _ => trivial⟩, fun _ _ _ => trivial⟩
    obtain ⟨body, rfl, hbody⟩ := lower_body herror hchunk
    rw [Node.nodes_eq] at hid
    rcases List.mem_cons.mp hid with hid | hid
    · cases hid
    obtain ⟨part, hp, hid⟩ := List.mem_flatMap.mp hid
    obtain ⟨o, ho, hpart⟩ := Outline.mem_resolveAll hbody hp
    obtain ⟨span, ⟨hstart, hstop, hrow⟩, hat⟩ := (hnamed o ho).identifier hpart hid
    obtain ⟨range, hr, hat⟩ := exists_of_bind_ok hat
    cases hat
    exact Outline.cut_place hstart hstop hrow hr
  refine ⟨hnames, ?_⟩
  intro container
  obtain ⟨found, hwalk, _⟩ := walk_lower herror hchunk container
  refine ⟨found, hwalk, ?_⟩
  intro o ho
  obtain ⟨id, hid, hname, hrange⟩ := Node.identifier_of_walk hwalk ho
  rw [hname, hrange]
  exact hnames id hid

def wideText : List Char := "f('é€😀', a.b)\nfunction o:m() g('é', c) end".toList

def wideTree : ParseTree := (Lua.parseTree? wideText).get (by decide +kernel)

/-- Names behind characters of two, three and four bytes, in a member, and in a method on another line. -/
theorem ParseTree.lower_names_wideText :
    Lua.parseTree? wideText = some wideTree ∧ wideTree.label.faulty = false ∧
    (∀ n ∈ wideTree.nodes, n.label.Anchored wideText) ∧
    ∃ chunk found, wideTree.lower (.ofChars wideText) "5.4" = .ok chunk ∧
      (∀ id, .identifier id ∈ chunk.nodes → id.range.cut? wideText = some id.name) ∧
      chunk.walk "a" = .ok found ∧
      (∀ o ∈ found.occurrences, o.range.cut? wideText = some o.name) ∧
      found.occurrences.toList.map (fun o => (o.name, o.range.start)) =
        [("f", ⟨0, 0⟩), ("b", ⟨0, 11⟩), ("g", ⟨1, 15⟩), ("c", ⟨1, 22⟩)] := by
  have hchecked : wideTree.label.faulty = false ∧ (∀ n ∈ wideTree.nodes, n.label.Anchored wideText) ∧
      ((wideTree.lower (.ofChars wideText) "5.4").toOption.bind fun chunk =>
        (chunk.walk "a").toOption).map (fun found =>
          found.occurrences.toList.map fun o => (o.name, o.range.start)) =
        some [("f", ⟨0, 0⟩), ("b", ⟨0, 11⟩), ("g", ⟨1, 15⟩), ("c", ⟨1, 22⟩)] := by decide +kernel
  obtain ⟨herror, ha, hfound⟩ := hchecked
  refine ⟨(Option.some_get _).symm, herror, ha, ?_⟩
  cases hchunk : wideTree.lower (.ofChars wideText) "5.4" with
  | error why =>
    rw [hchunk] at hfound
    cases hfound
  | ok chunk =>
    obtain ⟨hnames, hwalks⟩ := lower_names wideText "5.4" wideTree herror ha chunk hchunk
    obtain ⟨found, hwalk, hmentions⟩ := hwalks "a"
    rw [hchunk, Except.toOption, Option.bind_some, hwalk] at hfound
    exact ⟨chunk, found, rfl, hnames, hwalk, hmentions, Option.some.inj hfound⟩

end LuaSymbols
