import LuaSymbols.Lua.Grammar
import LuaSymbols.Proofs.Definitions
import LuaSymbols.Proofs.Mentions

namespace LuaSymbols

/-- Both ends belong to a range, so one position between two of them is what keeps them apart. -/
theorem Occurrence.not_covers_both {a b : Occurrence} (h : a.range.stop < b.range.start)
    (p : Position) : ¬ (a.Covers p ∧ b.Covers p) := by
  rintro ⟨ha, hb⟩
  have hle : b.range.start ≤ a.range.stop := Position.le_trans hb.1 ha.2
  exact Position.not_lt.mpr hle h

/-- Every position finds the mention that covers it, of which there is one at most. -/
structure FileIndex.Precise (f : FileIndex) : Prop where
  increasing : f.occurrences.Pairwise fun a b => a.range.stop < b.range.start
  single : ∀ p, f.occurrences.Pairwise fun a b => ¬ (a.Covers p ∧ b.Covers p)
  hit : ∀ o ∈ f.occurrences, ∀ p, o.Covers p → f.occurrenceAt? p = some o
  miss : ∀ p, (∀ o ∈ f.occurrences, ¬ o.Covers p) → f.occurrenceAt? p = none

/-- Strictly increasing ranges leave at most one mention at a position, and the look-up finds it. -/
theorem FileIndex.precise_of_increasing {f : FileIndex}
    (h : f.occurrences.Pairwise fun a b => a.range.stop < b.range.start) : f.Precise := by
  have hsingle (p : Position) : f.occurrences.Pairwise fun a b => ¬ (a.Covers p ∧ b.Covers p) :=
    h.imp fun hab => Occurrence.not_covers_both hab p
  refine ⟨h, hsingle, ?_, fun p => occurrenceAt?_eq_none⟩
  intro o ho p hp
  obtain ⟨front, rest, hf⟩ := List.append_of_mem ho
  apply occurrenceAt?_eq_some hf hp
  intro other hother hcovers
  have hpair := hsingle p
  rw [hf, List.pairwise_append] at hpair
  exact hpair.2.2 other hother o List.mem_cons_self ⟨hcovers, hp⟩

/-- Mentions of places that are apart in the text are apart. -/
theorem Occurrence.increasing_of_at {cs : List Char} {spans : List Span} {os : List Occurrence}
    (h : List.Forall₂ (Occurrence.At (.ofChars cs)) spans os) (hplace : ∀ span ∈ spans, span.In cs)
    (hapart : spans.Pairwise fun a b => a.stop.offset < b.start.offset) :
    os.Pairwise fun a b => a.range.stop < b.range.start := by
  let src := Source.ofChars cs
  have hbounds : os.map (fun o => (o.range.start, o.range.stop)) =
      spans.map fun s => (src.position s.start, src.position s.stop) := by
    clear hplace hapart
    induction h with
    | nil => rfl
    | cons hat _ ih => rw [List.map_cons, List.map_cons, ih, hat.start, hat.stop]
  have hordered : (spans.map fun s => (src.position s.start, src.position s.stop)).Pairwise
      fun a b => a.2 < b.1 := by
    refine List.pairwise_map.mpr (hapart.imp_of_mem ?_)
    intro a b ha hb hlt
    exact Source.position_lt (hplace a ha).stop (hplace b hb).start hlt
  rw [← hbounds] at hordered
  exact List.pairwise_map.mp hordered

namespace ParseTree

variable {cs : List Char} {t : ParseTree}

def names (t : ParseTree) : List Span :=
  (t.nodes.filter fun n => n.label.kind == "identifier").map (·.label.span)

/-- No name is empty, and any two have a character between them. -/
@[mk_iff]
structure NamesApart (t : ParseTree) : Prop where
  filled : ∀ a ∈ t.names, a.start.offset < a.stop.offset
  apart : ∀ a ∈ t.names, ∀ b ∈ t.names, a ≠ b →
    a.stop.offset < b.start.offset ∨ b.stop.offset < a.start.offset

instance (t : ParseTree) : Decidable t.NamesApart := decidable_of_iff' _ (namesApart_iff t)

theorem mem_names {span : Span} : span ∈ t.names ↔ t.Has "identifier" span := by
  simp [names, Has, and_assoc]

theorem listed_outline (hf : t.WellFormed cs) :
    Outline.Listed cs (t.Has "identifier") t.label.span (Outline.mentionsOf t.outline) := by
  have hrow := outline_row hf
  rw [Outline.mentionsOf_eq_flatMap]
  exact .flatMap hrow.lined fun o ho => (hrow.nested o ho).listed

/-- The walk meets names in order, so of the two ways to be apart only one is left. A name that is not
empty cannot come before itself, which tells the two names apart in the first place. -/
theorem mentions_apart (hf : t.WellFormed cs) (ha : t.NamesApart) :
    (Outline.mentionsOf t.outline).Pairwise fun a b => a.stop.offset < b.start.offset := by
  have hlisted := listed_outline hf
  refine hlisted.lined.ordered.imp_of_mem ?_
  intro a b hma hmb hbefore
  have hna := mem_names.mpr (hlisted.name a hma)
  have hnb := mem_names.mpr (hlisted.name b hmb)
  have hfa := ha.filled a hna
  have hfb := ha.filled b hnb
  have hne : a ≠ b := by
    rintro rfl
    simp only [Span.Before] at hbefore
    omega
  rcases ha.apart a hna b hnb hne with hlt | hlt
  · exact hlt
  · simp only [Span.Before] at hbefore
    omega

/-- In a dialect that knows its jumps a well-formed tree always has a chunk. -/
theorem lower_ok (hf : t.WellFormed cs) (herror : t.label.faulty = false) {version : String}
    (hv : version = jumplessVersion → ∀ n ∈ t.nodes, Label.isJump n.label.kind = false) :
    ∃ chunk, t.lower (.ofChars cs) version = .ok chunk := by
  have hjumps : version = jumplessVersion → ∀ kind span, t.Has kind span →
      Label.isJump kind = false := by
    rintro he kind span ⟨n, hn, rfl, _⟩
    exact hv he n hn
  obtain ⟨body, hbody⟩ := Outline.resolveAll_ok
    fun o ho => ((outline_row hf).nested o ho).resolve_ok hjumps
  simp only [lower, herror, hbody]
  exact ⟨_, rfl⟩

theorem lower_body {src : Source} {version : String} {chunk : Node} (herror : t.label.faulty = false)
    (h : t.lower src version = .ok chunk) :
    ∃ body, chunk = .chunk body ∧ Outline.resolveAll src version t.outline = .ok body := by
  simp only [lower, herror, Bool.false_eq_true, ↓reduceIte] at h
  obtain ⟨body, hbody, h⟩ := exists_of_bind_ok h
  cases h
  exact ⟨body, rfl, hbody⟩

/-- The walk over the tree of a document finds the names of its outline. -/
theorem walk_lower {src : Source} {version : String} {chunk : Node}
    (herror : t.label.faulty = false) (h : t.lower src version = .ok chunk) (container : String) :
    ∃ found, chunk.walk container = .ok found ∧
      List.Forall₂ (Occurrence.At src) (Outline.mentionsOf t.outline) found.occurrences.toList := by
  obtain ⟨body, rfl, hbody⟩ := lower_body herror h
  obtain ⟨found, hcollect, os, he, hall⟩ := Outline.collectAll_resolveAll t.outline hbody container []
    (Findings.empty.visit (.chunk body) [])
  refine ⟨found, hcollect, ?_⟩
  rw [he]
  exact hall

end ParseTree

theorem Text.chars_ofChars (cs : List Char) : (ofChars cs).chars = cs := by
  simp [ofChars, chars, List.filterMap_map, Function.comp_def, CodePoint.char?]

theorem Text.firstSurrogate?_ofChars (cs : List Char) : (ofChars cs).firstSurrogate? = none := by
  simp [ofChars, firstSurrogate?, List.findIdx?_map, CodePoint.isSurrogate]

theorem Text.parseWith_ofChars {cs : List Char} {version : String}
    {tree? : List Char → Option ParseTree} {tree : ParseTree} (h : tree? cs = some tree) :
    (Text.ofChars cs).parseWith version tree? = tree.lower (.ofChars cs) version := by
  simp only [Text.parseWith, Text.firstSurrogate?_ofChars, Text.chars_ofChars, h]

/-- A document whose parse tree is well formed and without errors is indexed, but for jumps in a dialect
without them. Each mention is of a name of the tree, mentions have a gap between them, and the cursor
finds a mention exactly where it stands. -/
theorem FileIndex.rebuild_precise (cs : List Char) (version : String)
    (tree? : List Char → Option ParseTree) (tree : ParseTree) (htree : tree? cs = some tree)
    (herror : tree.label.faulty = false) (hf : tree.WellFormed cs) (ha : tree.NamesApart) :
    let text := Text.ofChars cs
    let parser : Parser := fun text => text.parseWith version tree?
    ((version = jumplessVersion → ∀ n ∈ tree.nodes, Label.isJump n.label.kind = false) →
      ∃ chunk, parser text = .ok chunk) ∧
    ∀ chunk, parser text = .ok chunk → ∀ f : FileIndex, ∃ f',
      f.rebuild text parser = .ok (f', none) ∧
      List.Forall₂ (Occurrence.At (.ofChars cs)) (Outline.mentionsOf tree.outline) f'.occurrences ∧
      (∀ span ∈ Outline.mentionsOf tree.outline, tree.Has "identifier" span) ∧
      f'.Precise := by
  intro text parser
  have hparse : parser text = tree.lower (.ofChars cs) version := Text.parseWith_ofChars htree
  have hlisted := ParseTree.listed_outline hf
  constructor
  · intro hv
    rw [hparse]
    exact ParseTree.lower_ok hf herror hv
  · intro chunk hchunk f
    obtain ⟨found, hwalk, hall⟩ := ParseTree.walk_lower herror (hparse ▸ hchunk) f.identity
    refine ⟨f.accept found, rebuild_of_found hchunk hwalk, hall, hlisted.name, ?_⟩
    apply precise_of_increasing
    exact Occurrence.increasing_of_at hall hlisted.place (ParseTree.mentions_apart hf ha)

/-- A name behind a character of two bytes, a member, a method, and a branch on another line. -/
def branching : List Char := "if a then f('é', b.c)\nelse d:e(g) end".toList

def branchingTree : ParseTree := (Lua.parseTree? branching).get (by decide +kernel)

/-- The mentions of the text, each with the names in front of it and its range. -/
def branchingMentions : List (String × String × Position × Position) :=
  [("f", "", ⟨0, 10⟩, ⟨0, 11⟩), ("c", "b", ⟨0, 19⟩, ⟨0, 20⟩), ("e", "d", ⟨1, 7⟩, ⟨1, 8⟩),
    ("g", "", ⟨1, 9⟩, ⟨1, 10⟩)]

/-- A conditional with members, a method call and a wide character. -/
theorem FileIndex.rebuild_precise_branching :
    Lua.parseTree? branching = some branchingTree ∧ branchingTree.label.faulty = false ∧
    branchingTree.WellFormed branching ∧ branchingTree.NamesApart ∧
    ∃ f', (new "a").rebuild (.ofChars branching) (·.parseWith "5.4" Lua.parseTree?) =
        .ok (f', none) ∧ f'.Precise ∧
      f'.occurrences.map (fun o => (o.name, o.base, o.range.start, o.range.stop)) =
        branchingMentions := by
  have htree : Lua.parseTree? branching = some branchingTree := (Option.some_get _).symm
  have hchecked : branchingTree.label.faulty = false ∧ branchingTree.WellFormed branching ∧
      branchingTree.NamesApart := by decide +kernel
  obtain ⟨herror, hf, ha⟩ := hchecked
  refine ⟨htree, herror, hf, ha, ?_⟩
  obtain ⟨hok, hindexed⟩ := rebuild_precise branching "5.4" Lua.parseTree? branchingTree htree herror
    hf ha
  obtain ⟨chunk, hchunk⟩ := hok fun he => absurd he (by decide)
  obtain ⟨f', hrebuild, _, _, hprecise⟩ := hindexed chunk hchunk (new "a")
  change (new "a").rebuild (.ofChars branching) (·.parseWith "5.4" Lua.parseTree?) = _ at hrebuild
  have hfound : ((new "a").rebuild (.ofChars branching) (·.parseWith "5.4" Lua.parseTree?)).toOption.map
      (fun r => r.1.occurrences.map fun o => (o.name, o.base, o.range.start, o.range.stop)) =
        some branchingMentions := by decide +kernel
  rw [hrebuild] at hfound
  exact ⟨f', hrebuild, hprecise, Option.some.inj hfound⟩

end LuaSymbols
