import LuaSymbols.Proofs.Indexing
import LuaSymbols.Proofs.Names
import LuaSymbols.Proofs.Respanning

namespace LuaSymbols

def Position.down (k : Nat) (p : Position) : Position := ⟨p.line + k, p.column⟩

theorem Position.down_le_down {k : Nat} {p q : Position} : p.down k ≤ q.down k ↔ p ≤ q := by
  simp only [Position.down, Position.le_def]
  omega

namespace Range

def down (k : Nat) (r : Range) : Range :=
  ⟨r.start.down k, r.stop.down k, Position.down_le_down.mpr r.start_le_stop⟩

theorem contains_down (k : Nat) (r : Range) (p : Position) :
    (r.down k).contains (p.down k) = r.contains p := by
  simp [contains, down, Position.down_le_down]

end Range

def Identifier.down (k : Nat) (id : Identifier) : Identifier := { id with range := id.range.down k }

namespace Node

mutual

def down (k : Nat) : Node → Node
  | .chunk body => .chunk (downAll k body)
  | .identifier id => .identifier (id.down k)
  | .member base id indexer range => .member (down k base) (id.down k) indexer (range.down k)
  | .call base arguments range => .call (down k base) (downAll k arguments) (range.down k)
  | .function name body isLocal range =>
    .function (downName k name) (downAll k body) isLocal (range.down k)
  | .callStatement expression range => .callStatement (down k expression) (range.down k)
  | .block kind body range => .block kind (downAll k body) (range.down k)
  | .unsupported kind range => .unsupported kind (range.down k)
  | .foreign => .foreign

def downAll (k : Nat) : List Node → List Node
  | [] => []
  | node :: rest => down k node :: downAll k rest

def downName (k : Nat) : Option Node → Option Node
  | none => none
  | some node => some (down k node)

end

theorem downAll_eq_map (k : Nat) (nodes : List Node) : downAll k nodes = nodes.map (down k) := by
  induction nodes with
  | nil => rfl
  | cons node rest ih => rw [downAll, ih, List.map_cons]

theorem downName_eq_map (k : Nat) (name : Option Node) : downName k name = name.map (down k) := by
  cases name <;> rfl

theorem isName_down (k : Nat) (node : Node) : (node.down k).isName = node.isName := by
  cases node <;> rfl

/-- The chain in front of a name is made of names only, so lines in front do not show in it. -/
theorem dotted_down (k : Nat) (node : Node) : (node.down k).dotted = node.dotted := by
  match node with
  | .member base id indexer range =>
    simp only [down, dotted, dotted_down k base, Identifier.down]
  | .identifier _ | .chunk _ | .call .. | .function .. | .callStatement .. | .block ..
  | .unsupported .. | .foreign =>
    simp only [down, dotted, Identifier.down]

theorem declaredName?_down (k : Nat) (node : Node) :
    (node.down k).declaredName? = node.declaredName? := by
  cases node <;> rfl

end Node

def Occurrence.down (k : Nat) (o : Occurrence) : Occurrence := { o with range := o.range.down k }

def Symbol.down (k : Nat) (d : Symbol) : Symbol := { d with range := d.range.down k }

def ParseFailure.down (k : Nat) (f : ParseFailure) : ParseFailure :=
  { f with position := f.position.map (·.down k) }

def Fault.down (k : Nat) : Fault → Fault
  | .invertedRange start stop => .invertedRange (start.down k) (stop.down k)
  | .wordlessJump => .wordlessJump
  | .foreignNode => .foreignNode
  | .unprintable markup => .unprintable markup

def ParseError.down (k : Nat) : ParseError → ParseError
  | .failure f => .failure (f.down k)
  | .fault f => .fault (f.down k)

def FileIndex.down (k : Nat) (f : FileIndex) : FileIndex :=
  { f with
    occurrences := f.occurrences.map (·.down k)
    symbols := f.symbols.map (·.down k)
    byName := f.byName.mapValues (·.down k)
    lastError := f.lastError.map (·.down k) }

def Point.down (bytes lines : Nat) (p : Point) : Point := ⟨p.offset + bytes, p.row + lines, p.column⟩

def Span.down (bytes lines : Nat) (s : Span) : Span :=
  ⟨s.start.down bytes lines, s.stop.down bytes lines⟩

def moved {ε α β : Type} (onError : ε → ε) (f : α → β) : Except ε α → Except ε β
  | .ok a => .ok (f a)
  | .error why => .error (onError why)

/-- Two computations that move step by step move as a whole, whether they end in a result or an
error. -/
theorem moved_bind {ε α α' β β' : Type} {onError : ε → ε} {f : α → α'} {h : β → β'} {x : Except ε α}
    {g : α → Except ε β} {g' : α' → Except ε β'} (hg : ∀ a, g' (f a) = moved onError h (g a)) :
    moved onError f x >>= g' = moved onError h (x >>= g) := by
  cases x with
  | ok a => exact hg a
  | error why => rfl

/-- Another text has at another place what this text has here, but some lines further down. -/
structure Source.Carries (src src' : Source) (g : Span → Span) (k : Nat) (span : Span) : Prop where
  chars : src'.chars (g span) = src.chars span
  start : src'.position (g span).start = (src.position span.start).down k
  stop : src'.position (g span).stop = (src.position span.stop).down k

namespace Outline

variable {src src' : Source} {g : Span → Span} {k : Nat} {version : String}

theorem place_down {span : Span} (h : src.Carries src' g k span) :
    place src' (g span) = moved (·.down k) (·.down k) (place src span) := by
  by_cases hle : src.position span.start ≤ src.position span.stop
  all_goals
    simp only [place, Source.range, h.start, h.stop, Range.between, Range.ofPositions?,
      Position.down_le_down, hle]
    rfl

theorem nameAt_down {span : Span} (h : src.Carries src' g k span) :
    nameAt src' (g span) = moved (·.down k) (·.down k) (nameAt src span) := by
  rw [nameAt, place_down h, Source.text, h.chars]
  exact moved_bind fun range => rfl

theorem refuseJump_down {span : Span} (h : src.Carries src' g k span) :
    refuseJump src' (g span) = (refuseJump src span).down k := by
  rw [refuseJump, h.chars, h.start, refuseJump]
  cases firstWord? (src.chars span) <;> rfl

def Demands.everywhere (P : Span → Prop) : Demands :=
  ⟨P, fun _ => True, fun _ => True, fun _ => True⟩

theorem resolveAll_down {os : List Outline}
    (h : ∀ o ∈ os, resolve src' version (o.respan g) =
      moved (·.down k) (·.down k) (resolve src version o)) :
    resolveAll src' version (os.map (respan g)) =
      moved (·.down k) (·.map (·.down k)) (resolveAll src version os) := by
  induction os with
  | nil => rfl
  | cons o os ih =>
    rw [List.forall_mem_cons] at h
    rw [List.map_cons, resolveAll, resolveAll, h.1, ih h.2]
    refine moved_bind fun node => ?_
    exact moved_bind fun nodes => rfl

theorem resolveName_down {name : Option Outline}
    (h : ∀ o ∈ name, resolve src' version (o.respan g) =
      moved (·.down k) (·.down k) (resolve src version o)) :
    resolveName src' version (name.map (respan g)) =
      moved (·.down k) (·.map (·.down k)) (resolveName src version name) := by
  cases name with
  | none => rfl
  | some o =>
    rw [Option.map_some, resolveName, resolveName, h o rfl]
    refine moved_bind fun node => ?_
    rw [Node.isName_down]
    split <;> rfl

/-- One case for each kind of outline; the order in which parts are placed is the same on both
sides. -/
theorem Shaped.resolve_down {role : Role} {o : Outline}
    (h : o.Shaped (.everywhere (src.Carries src' g k)) role) (version : String) :
    resolve src' version (o.respan g) = moved (·.down k) (·.down k) (resolve src version o) := by
  induction h with
  | identifier hplace _ =>
    rw [respan, resolve, resolve, nameAt_down hplace]
    exact moved_bind fun id => rfl
  | member hplace _ hid _ ih =>
    rw [respan, resolve, resolve, ih, nameAt_down hid, place_down hplace]
    refine moved_bind fun base => ?_
    refine moved_bind fun id => ?_
    exact moved_bind fun range => rfl
  | call hplace _ _ ihBase ihArguments =>
    rw [respan, resolve, resolve, respanAll_eq_map, resolveAll_down ihArguments, ihBase,
      place_down hplace]
    refine moved_bind fun arguments => ?_
    refine moved_bind fun base => ?_
    refine moved_bind fun range => ?_
    rw [← Node.downAll_eq_map]
    rfl
  | function hplace _ _ _ ihName ihBody =>
    rw [respan, resolve, resolve, respanAll_eq_map, respanName_eq_map, resolveName_down ihName,
      resolveAll_down ihBody, place_down hplace]
    refine moved_bind fun name => ?_
    refine moved_bind fun body => ?_
    refine moved_bind fun range => ?_
    rw [← Node.downAll_eq_map, ← Node.downName_eq_map]
    rfl
  | callStatement hplace _ ih =>
    rw [respan, resolve, resolve, ih, place_down hplace]
    refine moved_bind fun expression => ?_
    exact moved_bind fun range => rfl
  | block hplace _ ih =>
    rw [respan, resolve, resolve, respanAll_eq_map, resolveAll_down ih, place_down hplace]
    refine moved_bind fun body => ?_
    refine moved_bind fun range => ?_
    rw [← Node.downAll_eq_map]
    rfl
  -- The dialect is the same on both sides, so both refuse or neither does.
  | jump hplace _ _ =>
    rw [respan, resolve, resolve, refuseJump_down hplace, place_down hplace]
    split
    · rfl
    · exact moved_bind fun range => rfl
  | unsupported hplace _ =>
    rw [respan, resolve, resolve, place_down hplace]
    exact moved_bind fun range => rfl

end Outline

namespace ParseTree

variable {src src' : Source} {g : Span → Span} {k : Nat} {t : ParseTree}

/-- The first error of a faulty tree moves like any other place. -/
theorem lower_down (h : ∀ n ∈ t.nodes, src.Carries src' g k n.label.span) (version : String) :
    (t.respan g).lower src' version = moved (·.down k) (·.down k) (t.lower src version) := by
  have hfaulty : (t.respan g).label.faulty = t.label.faulty := by
    rw [label_respan]
    rfl
  have herror : (t.respan g).describeError src' = (t.describeError src).down k := by
    rw [describeError, firstError?_respan, describeError]
    cases hfirst : t.firstError? with
    | none => rfl
    | some l =>
      obtain ⟨n, hn, rfl⟩ := mem_of_firstError? t hfirst
      have hstart := (h n hn).start
      simp [ParseFailure.down, Label.respan, hstart]
  have hshaped : ∀ o ∈ t.outline, o.Shaped (.everywhere (src.Carries src' g k)) .statement := by
    apply outline_shaped
    intro n hn
    exact ⟨⟨h n hn, fun _ => trivial, fun _ => trivial⟩, fun _ _ _ => trivial⟩
  have hresolve := Outline.resolveAll_down fun o ho => (hshaped o ho).resolve_down version
  rw [lower, hfaulty, herror, outline_respan, hresolve, lower]
  split
  · rfl
  · cases Outline.resolveAll src version t.outline with
    | error why => rfl
    | ok body =>
      change Except.ok (Node.chunk (body.map (Node.down k))) = .ok (.chunk (Node.downAll k body))
      rw [Node.downAll_eq_map]

def down (bytes lines : Nat) (t : ParseTree) : ParseTree := t.respan (Span.down bytes lines)

end ParseTree

/-- No column of the span reaches back beyond the start of the text. -/
@[mk_iff]
structure Span.Upright (s : Span) : Prop where
  start : s.start.column ≤ s.start.offset
  stop : s.stop.column ≤ s.stop.offset

instance (s : Span) : Decidable s.Upright := decidable_of_iff' _ s.upright_iff

namespace Source

variable (front cs : List Char)

theorem slice_append (start stop : Nat) :
    (ofChars (front ++ cs)).slice (start + (Utf8.encode front).length)
      (stop + (Utf8.encode front).length) = (ofChars cs).slice start stop := by
  have hcut : ((ofChars (front ++ cs)).bytes.extract (start + (Utf8.encode front).length)
      (stop + (Utf8.encode front).length)).toList =
        ((ofChars cs).bytes.extract start stop).toList := by
    have hfront : (Utf8.encode front).drop (start + (Utf8.encode front).length) = [] :=
      List.drop_eq_nil_of_le (Nat.le_add_left _ _)
    simp [ofChars, List.extract_eq_take_drop, Utf8.encode_append, List.drop_append, hfront,
      Nat.add_sub_add_right]
  rw [slice, hcut, slice]

/-- A position moves by the lines in front only if its row starts inside the text, which is what the
condition says. -/
theorem position_append (k : Nat) {p : Point} (h : p.column ≤ p.offset) :
    (ofChars (front ++ cs)).position (p.down (Utf8.encode front).length k) =
      ((ofChars cs).position p).down k := by
  have hstart : p.offset + (Utf8.encode front).length - p.column =
      p.offset - p.column + (Utf8.encode front).length := by omega
  simp only [position, Point.down, hstart, slice_append, Position.down]
  simp

theorem carries_append (k : Nat) {span : Span} (h : span.Upright) :
    (ofChars cs).Carries (ofChars (front ++ cs)) (Span.down (Utf8.encode front).length k) k span :=
  ⟨slice_append front cs _ _, position_append front cs k h.start, position_append front cs k h.stop⟩

end Source

namespace Text

theorem foldl_advance_down (k : Nat) (t : Text) (p : Position) :
    t.foldl advance (p.down k) = (t.foldl advance p).down k := by
  induction t generalizing p with
  | nil => rfl
  | cons c t ih =>
    have hstep : advance (p.down k) c = (advance p c).down k := by
      unfold advance
      split
      · simp [Position.down]
        omega
      · rfl
    rw [List.foldl_cons, List.foldl_cons, hstep, ih]

/-- Whole lines end where a line starts. -/
theorem after_lines {front : List Char} (h : front = [] ∨ front.getLast? = some '\n') :
    Position.after front = Position.origin.down (front.count '\n') := by
  rcases h with rfl | h
  · rfl
  · obtain ⟨lines, rfl⟩ := List.getLast?_eq_some_iff.mp h
    obtain ⟨line, hposition, _⟩ := Position.after_line lines []
    rw [Position.after_append, hposition]
    simp [advance, Position.down, Position.origin]

theorem positionOf_append {front : List Char} (h : front = [] ∨ front.getLast? = some '\n')
    (t : Text) (index : Nat) : (ofChars front ++ t).positionOf (index + front.length) =
      (t.positionOf index).down (front.count '\n') := by
  have hlength : (ofChars front).length = front.length := by simp [ofChars]
  have htake : (ofChars front ++ t).take (index + front.length) = ofChars front ++ t.take index := by
    rw [← hlength, Nat.add_comm, List.take_length_add_append]
  have hfront : (ofChars front).foldl advance .origin = Position.origin.down (front.count '\n') :=
    after_lines h
  rw [positionOf, htake, List.foldl_append, hfront, foldl_advance_down, positionOf]

theorem firstSurrogate?_append (front : List Char) (t : Text) :
    (ofChars front ++ t).firstSurrogate? = t.firstSurrogate?.map (· + front.length) := by
  have hnone : (ofChars front).findIdx? CodePoint.isSurrogate = none := firstSurrogate?_ofChars front
  rw [firstSurrogate?, List.findIdx?_append, hnone, Option.none_or, firstSurrogate?]
  simp [ofChars]

theorem chars_append (front : List Char) (t : Text) : (ofChars front ++ t).chars = front ++ t.chars := by
  simp [chars, ofChars, List.filterMap_map, Function.comp_def, CodePoint.char?]

end Text

namespace Node

theorem walked_down (k : Nat) (node : Node) : (node.down k).walked = node.walked.map (down k) := by
  cases node <;> simp [down, walked, downAll_eq_map]

/-- The walk goes by the kinds of nodes, so it takes the same course further down. -/
theorem visible_down (k : Nat) (node : Node) : (node.down k).visible = node.visible.map (down k) := by
  induction node using parts_induction with
  | h node ih =>
    rw [visible_eq, walked_down, List.flatMap_map, visible_eq node, List.map_cons, List.map_flatMap]
    congr 1
    apply List.flatMap_congr
    intro part hp
    exact ih part (node.walked_subset_parts hp)

theorem down_eq_foreign {k : Nat} {node : Node} : node.down k = .foreign ↔ node = .foreign := by
  cases node <;> simp [down]

theorem mention?_down (k : Nat) (node : Node) :
    (node.down k).mention? = node.mention?.map (·.down k) := by
  cases node with
  | member base id indexer range => simp [down, mention?, dotted_down, Identifier.down, Occurrence.down]
  | _ => rfl

theorem declaration?_down (k : Nat) (container : String) (node : Node) :
    (node.down k).declaration? container = (node.declaration? container).map (·.down k) := by
  cases node with
  | function name body isLocal range =>
    have hname : (downName k name).bind declaredName? = name.bind declaredName? := by
      cases name with
      | none => rfl
      | some node => exact declaredName?_down k node
    simp only [down, declaration?, hname, Option.map_map]
    rfl
  | _ => rfl

/-- Both walks stop at a foreign node, or both find the same at places further down. -/
theorem walk_down (k : Nat) (node : Node) (container : String) :
    (node.walk container = .error .foreignNode ∧
      (node.down k).walk container = .error .foreignNode) ∨
    ∃ found found', node.walk container = .ok found ∧ (node.down k).walk container = .ok found' ∧
      found'.occurrences.toList = found.occurrences.toList.map (·.down k) ∧
      found'.symbols.toList = found.symbols.toList.map (·.down k) := by
  have hsame : .foreign ∈ (node.down k).visible ↔ .foreign ∈ node.visible := by
    simp [visible_down, down_eq_foreign]
  by_cases h : .foreign ∈ node.visible
  · exact .inl ⟨walk_error h container, walk_error (hsame.mpr h) container⟩
  · obtain ⟨found, hwalk, _⟩ := walk_ok h container
    obtain ⟨found', hwalk', _⟩ := walk_ok (mt hsame.mp h) container
    refine .inr ⟨found, found', hwalk, hwalk', ?_, ?_⟩
    · rw [(walk_findings hwalk).1, (walk_findings hwalk').1, visible_down, List.filterMap_map,
        List.map_filterMap]
      congr 1
      funext n
      exact mention?_down k n
    · rw [(walk_findings hwalk).2, (walk_findings hwalk').2, visible_down, List.filterMap_map,
        List.map_filterMap]
      congr 1
      funext n
      exact declaration?_down k container n

end Node

namespace FileIndex

theorem tabulate_down (k : Nat) (symbols : List Symbol) :
    tabulate (symbols.map (·.down k)) = (tabulate symbols).mapValues (·.down k) := by
  have hfold (t : Table Symbol) : (symbols.map (·.down k)).foldl (fun t s => t.put s.name s)
      (t.mapValues (·.down k)) =
        (symbols.foldl (fun t s => t.put s.name s) t).mapValues (·.down k) := by
    induction symbols generalizing t with
    | nil => rfl
    | cons d ds ih =>
      rw [List.map_cons, List.foldl_cons, List.foldl_cons, ← ih, Table.mapValues_put]
      rfl
  exact hfold []

theorem new_down (k : Nat) (identity : String) : (new identity).down k = new identity := rfl

variable {f : FileIndex} {k : Nat}

theorem accept_down {found found' : Findings}
    (ho : found'.occurrences.toList = found.occurrences.toList.map (·.down k))
    (hs : found'.symbols.toList = found.symbols.toList.map (·.down k)) :
    (f.down k).accept found' = (f.accept found).down k := by
  simp only [accept, down, ho, hs, tabulate_down, Option.map_none]

/-- What the parser moves the whole index moves, its failure and its faults included. -/
theorem rebuild_down {parser parser' : Parser} {text text' : Text}
    (h : parser' text' = moved (·.down k) (·.down k) (parser text)) (f : FileIndex) :
    (f.down k).rebuild text' parser' =
      moved (·.down k) (fun (f', failure) => (f'.down k, failure.map (·.down k)))
        (f.rebuild text parser) := by
  cases hp : parser text with
  | error why =>
    rw [hp] at h
    cases why with
    | failure failure =>
      simp only [rebuild, h, hp, moved, ParseError.down]
      rfl
    | fault fault => simp only [rebuild, h, hp, moved, ParseError.down]
  | ok tree =>
    rw [hp] at h
    rcases tree.walk_down k f.identity with ⟨hw, hw'⟩ | ⟨found, found', hw, hw', ho, hs⟩
    · have hw'' : (tree.down k).walk (f.down k).identity = .error .foreignNode := hw'
      simp only [rebuild, h, hp, moved, hw, hw'']
      rfl
    · have hw'' : (tree.down k).walk (f.down k).identity = .ok found' := hw'
      rw [rebuild_of_found hp hw, rebuild_of_found h hw'', accept_down ho hs]
      rfl

theorem occurrenceAt?_down (k : Nat) (f : FileIndex) (p : Position) :
    (f.down k).occurrenceAt? (p.down k) = (f.occurrenceAt? p).map (·.down k) := by
  rw [occurrenceAt?, down, List.find?_map, occurrenceAt?]
  congr 2
  funext o
  exact o.range.contains_down k p

end FileIndex

/-- Whole lines in front of a document move its tree, its failure or its fault down by as many lines, and
change nothing else. So do they with its index, and with what is found at a position. -/
theorem Text.parseWith_down (front : List Char) (hfront : front = [] ∨ front.getLast? = some '\n')
    (text : Text) (tree : ParseTree) (hu : ∀ n ∈ tree.nodes, n.label.span.Upright)
    (version : String) :
    let k := front.count '\n'
    let parser : Parser := fun text => text.parseWith version fun _ => some tree
    let parser' : Parser := fun text =>
      text.parseWith version fun _ => some (tree.down (Utf8.encode front).length k)
    parser' (ofChars front ++ text) = moved (·.down k) (·.down k) (parser text) ∧
    (∀ f : FileIndex, (f.down k).rebuild (ofChars front ++ text) parser' =
      moved (·.down k) (fun (f', failure) => (f'.down k, failure.map (·.down k)))
        (f.rebuild text parser)) ∧
    ∀ (f : FileIndex) (p : Position),
      (f.down k).occurrenceAt? (p.down k) = (f.occurrenceAt? p).map (·.down k) := by
  intro k parser parser'
  have hparse : parser' (ofChars front ++ text) = moved (·.down k) (·.down k) (parser text) := by
    simp only [parser, parser', parseWith, firstSurrogate?_append, chars_append]
    cases text.firstSurrogate? with
    | some index =>
      simp only [Option.map_some, positionOf_append hfront]
      rfl
    | none =>
      exact ParseTree.lower_down (fun n hn => Source.carries_append front text.chars k (hu n hn)) version
  exact ⟨hparse, FileIndex.rebuild_down hparse, FileIndex.occurrenceAt?_down k⟩

/-- A member on the first line, behind a wide character, and a method on the second. -/
def lifted : List Char := "f('é',a.b)\nfunction c:d()end".toList

def liftedTree : ParseTree := (Lua.parseTree? lifted).get (by decide +kernel)

def heading : List Char := "--ö\n\n".toList

/-- A remark with a wide character and an empty line in front. -/
theorem Text.parseWith_down_heading :
    Lua.parseTree? lifted = some liftedTree ∧ (∀ n ∈ liftedTree.nodes, n.label.span.Upright) ∧
    ∃ f : FileIndex,
      (FileIndex.new "a").rebuild (ofChars lifted) (fun text =>
        text.parseWith "5.4" fun _ => some liftedTree) = .ok (f, none) ∧
      f.occurrences.map (fun o => (o.name, o.range.start)) = [("f", ⟨0, 0⟩), ("b", ⟨0, 8⟩)] ∧
      f.symbols.map (fun d => (d.name, d.range.start)) = [("d", ⟨1, 0⟩)] ∧
      (FileIndex.new "a").rebuild (ofChars heading ++ ofChars lifted) (fun text =>
        text.parseWith "5.4" fun _ => some (liftedTree.down 6 2)) = .ok (f.down 2, none) ∧
      (f.down 2).occurrenceAt? ⟨2, 8⟩ = (f.occurrenceAt? ⟨0, 8⟩).map (·.down 2) := by
  have hchecked : (∀ n ∈ liftedTree.nodes, n.label.span.Upright) ∧
      ((FileIndex.new "a").rebuild (ofChars lifted) fun text =>
        text.parseWith "5.4" fun _ => some liftedTree).toOption.map (fun (f, failure) =>
          (f.occurrences.map fun o => (o.name, o.range.start),
            f.symbols.map fun d => (d.name, d.range.start), failure)) =
        some ([("f", ⟨0, 0⟩), ("b", ⟨0, 8⟩)], [("d", ⟨1, 0⟩)], none) := by decide +kernel
  obtain ⟨hupright, hfound⟩ := hchecked
  refine ⟨(Option.some_get _).symm, hupright, ?_⟩
  obtain ⟨_, hrebuild, hat⟩ :=
    parseWith_down heading (.inr (by decide)) (ofChars lifted) liftedTree hupright "5.4"
  have hmoved := hrebuild (.new "a")
  rw [FileIndex.new_down] at hmoved
  cases hindex : (FileIndex.new "a").rebuild (ofChars lifted) fun text =>
      text.parseWith "5.4" fun _ => some liftedTree with
  | error fault =>
    rw [hindex] at hfound
    cases hfound
  | ok indexed =>
    obtain ⟨f, failure⟩ := indexed
    rw [hindex] at hfound hmoved
    simp only [Except.toOption, Option.map_some, Option.some.injEq, Prod.mk.injEq] at hfound
    obtain ⟨hoccurrences, hsymbols, rfl⟩ := hfound
    exact ⟨f, rfl, hoccurrences, hsymbols, hmoved, hat f ⟨0, 8⟩⟩

end LuaSymbols
