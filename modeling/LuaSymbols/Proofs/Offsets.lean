import LuaSymbols.Proofs.Displacement
import LuaSymbols.Proofs.SyntaxErrors
import Mathlib.Data.List.DropRight

namespace LuaSymbols

section AfterLast

variable {α : Type} [DecidableEq α] {x : α}

/-- The index after the last occurrence of an element, or zero if there is none. -/
def afterLast (x : α) (xs : List α) : Nat := (xs.rdropWhile fun y => y ≠ x).length

theorem afterLast_le (x : α) (xs : List α) : afterLast x xs ≤ xs.length :=
  (List.rdropWhile_prefix _ xs).length_le

theorem afterLast_concat_self (x : α) (xs : List α) : afterLast x (xs ++ [x]) = xs.length + 1 := by
  simp [afterLast]

theorem afterLast_concat_of_ne {y : α} (h : y ≠ x) (xs : List α) :
    afterLast x (xs ++ [y]) = afterLast x xs := by
  simp [afterLast, h]

theorem afterLast_append {ys : List α} (h : x ∉ ys) (xs : List α) :
    afterLast x (xs ++ ys) = afterLast x xs := by
  induction ys using List.reverseRecOn with
  | nil => rw [List.append_nil]
  | append_singleton ys y ih =>
    simp only [List.mem_append, List.mem_singleton, not_or] at h
    rw [← List.append_assoc, afterLast_concat_of_ne (Ne.symm h.2), ih h.1]

end AfterLast

/-- The place of a byte offset: the row is the number of line feeds before it, and the column is the
number of bytes since the last of them. -/
def Source.pointAt (src : Source) (offset : Nat) : Point :=
  let front := src.bytes.toList.take offset
  ⟨offset, front.count 0x0A, offset - afterLast 0x0A front⟩

/-- The position of an index: the line is the number of line feeds before it, and the column is how far
the index is from the one after the last of them. -/
def Text.placeOf (t : Text) (index : Nat) : Position :=
  let front := t.take index
  ⟨front.count (.char '\n'), index - afterLast (.char '\n') front⟩

/-- Stepping through a text counts its lines and what stands in the last of them. By induction from
the end, since a step looks at the last character only. -/
theorem Text.foldl_advance (t : Text) : t.foldl advance .origin =
    ⟨t.count (.char '\n'), t.length - afterLast (.char '\n') t⟩ := by
  induction t using List.reverseRecOn with
  | nil => rfl
  | append_singleton t c ih =>
    rw [List.foldl_append, List.foldl_cons, List.foldl_nil, ih, List.count_append, List.length_append,
      List.length_singleton]
    by_cases hc : c = .char '\n'
    · subst hc
      rw [afterLast_concat_self]
      simp [advance]
    · have hnone : [c].count (.char '\n') = 0 := by simp [hc]
      rw [afterLast_concat_of_ne hc, hnone, advance, if_neg hc, Position.mk.injEq]
      dsimp only
      omega

theorem Text.positionOf_eq_placeOf {t : Text} {index : Nat} (h : index ≤ t.length) :
    t.positionOf index = t.placeOf index := by
  rw [positionOf, foldl_advance, placeOf, List.length_take_of_le h]

theorem Position.after_take {cs : List Char} {index : Nat} (h : index ≤ cs.length) :
    Position.after (cs.take index) = (Text.ofChars cs).placeOf index := by
  have hlength : index ≤ (Text.ofChars cs).length := by simpa [Text.ofChars] using h
  rw [← Text.positionOf_eq_placeOf hlength, Text.positionOf, Position.after, Text.ofChars,
    List.map_take, Text.ofChars]

/-- The byte place after some characters is what counting bytes gives; no byte inside a character
can be taken for a line feed. -/
theorem Point.after_eq (front : List Char) : Point.after front =
    ⟨(Utf8.encode front).length, (Utf8.encode front).count 0x0A,
      (Utf8.encode front).length - afterLast 0x0A (Utf8.encode front)⟩ := by
  induction front using List.reverseRecOn with
  | nil => rfl
  | append_singleton front c ih =>
    have hle := afterLast_le 0x0A (Utf8.encode front)
    rw [Point.after_append, ih, Utf8.count_lineFeed, Utf8.count_lineFeed, List.count_append,
      Utf8.encode_concat, List.length_append, String.length_utf8EncodeChar]
    by_cases hc : c = '\n'
    · subst hc
      have hbyte : String.utf8EncodeChar '\n' = [0x0A] := rfl
      have hsize : '\n'.utf8Size = 1 := rfl
      rw [hbyte, hsize, afterLast_concat_self]
      simp [Point.advance]
    · have hnone : [c].count '\n' = 0 := by simp [hc]
      rw [afterLast_append (mt Utf8.eq_lineFeed_of_mem hc), hnone, Point.advance, if_neg hc,
        Point.mk.injEq]
      dsimp only
      omega

theorem Source.toList_bytes (cs : List Char) : (ofChars cs).bytes.toList = Utf8.encode cs := rfl

/-- A place between two characters is found by its offset. -/
theorem Source.pointAt_after {cs front : List Char} (h : front <+: cs) :
    (ofChars cs).pointAt (Utf8.encode front).length = .after front := by
  obtain ⟨rest, rfl⟩ := h
  have htake : (Utf8.encode (front ++ rest)).take (Utf8.encode front).length = Utf8.encode front := by
    rw [Utf8.encode_append, List.take_left]
  rw [pointAt, toList_bytes, htake, Point.after_eq]

section Cut

variable (front rest : List Char) {c : Char} {cut : List UInt8}

theorem Utf8.encode_cut {tail : List UInt8} (h : cut ++ tail = String.utf8EncodeChar c) :
    encode (front ++ [c] ++ rest) = encode front ++ cut ++ (tail ++ encode rest) := by
  rw [encode_append, encode_concat, ← h]
  simp only [List.append_assoc]

/-- Inside a character the row is that of the character. A line feed is excluded because it has no
inside. -/
theorem Source.pointAt_cut (hc : c ≠ '\n') (hcut : cut <+: String.utf8EncodeChar c) :
    (ofChars (front ++ [c] ++ rest)).pointAt (Utf8.encode front ++ cut).length =
      ⟨(Utf8.encode front ++ cut).length, (Point.after front).row,
        (Point.after front).column + cut.length⟩ := by
  obtain ⟨tail, htail⟩ := hcut
  have hfree : 0x0A ∉ cut := by
    intro hmem
    apply hc
    apply Utf8.eq_lineFeed_of_mem
    rw [← htail]
    exact List.mem_append_left _ hmem
  have htake : (Utf8.encode (front ++ [c] ++ rest)).take (Utf8.encode front ++ cut).length =
      Utf8.encode front ++ cut := by
    rw [Utf8.encode_cut front rest htail, List.take_left]
  have hle := afterLast_le 0x0A (Utf8.encode front)
  rw [pointAt, toList_bytes, htake, List.count_append, List.count_eq_zero.mpr hfree,
    afterLast_append hfree, Point.after_eq, List.length_append, Nat.add_zero,
    Nat.sub_add_comm hle]

/-- A place in or right behind a character has the position behind it. -/
theorem Source.position_cut (hcut : cut <+: String.utf8EncodeChar c) (hne : cut ≠ []) :
    let src := ofChars (front ++ [c] ++ rest)
    src.position (src.pointAt (Utf8.encode front ++ cut).length) = .after (front ++ [c]) := by
  intro src
  by_cases hc : c = '\n'
  · subst hc
    -- A line feed is one byte, so the cut is all of it.
    have hwhole : cut = String.utf8EncodeChar '\n' :=
      hcut.eq_of_length_le (List.length_pos_iff.mpr hne)
    have hprefix : front ++ ['\n'] <+: front ++ ['\n'] ++ rest := List.prefix_append _ _
    rw [hwhole, ← Utf8.encode_concat, Source.pointAt_after hprefix, Source.position_after hprefix]
  · obtain ⟨head, line, rfl, hoffset, hcolumn, hposition⟩ := Point.after_lastLine front
    obtain ⟨tail, htail⟩ := hcut
    have hbytes : src.bytes.toList =
        Utf8.encode head ++ (Utf8.encode line ++ cut) ++ (tail ++ Utf8.encode rest) := by
      rw [toList_bytes, Utf8.encode_cut (head ++ line) rest htail, Utf8.encode_append]
      simp only [List.append_assoc]
    have hstart : (Utf8.encode (head ++ line) ++ cut).length - ((Utf8.encode line).length + cut.length) =
        (Utf8.encode head).length := by
      simp only [Utf8.encode_append, List.length_append]
      omega
    have hstop : (Utf8.encode (head ++ line) ++ cut).length =
        (Utf8.encode head).length + (Utf8.encode line ++ cut).length := by
      simp only [Utf8.encode_append, List.length_append]
      omega
    rw [pointAt_cut (head ++ line) rest hc ⟨tail, htail⟩, Position.after_append, hposition, hcolumn,
      position, hstart, hstop, slice_of_bytes hbytes, Utf8.length_decode_cut line ⟨tail, htail⟩ hne]
    simp [Text.advance, hc]

end Cut

def Utf8.startOf (cs : List Char) (index : Nat) : Nat := (encode (cs.take index)).length

def Utf8.startedBefore (cs : List Char) (offset : Nat) : List Nat :=
  (List.range cs.length).filter fun i => startOf cs i < offset

/-- The line of the character of an index: the number of line feeds before it. -/
def lineOf (cs : List Char) (index : Nat) : Nat := (cs.take index).count '\n'

theorem Utf8.startOf_mono (cs : List Char) {i j : Nat} (h : i ≤ j) : startOf cs i ≤ startOf cs j := by
  obtain ⟨more, hmore⟩ := List.take_prefix_take_left (l := cs) h
  rw [startOf, startOf, ← hmore, encode_append, List.length_append]
  exact Nat.le_add_right _ _

theorem Utf8.startedBefore_mono (cs : List Char) {b b' : Nat} (h : b ≤ b') :
    (startedBefore cs b).length ≤ (startedBefore cs b').length := by
  apply List.Sublist.length_le
  apply List.monotone_filter_right
  intro i hi
  simp only [decide_eq_true_eq] at hi ⊢
  omega

/-- The last character that starts before an offset. -/
theorem Utf8.exists_last_started (cs : List Char) {b : Nat} (hb : 0 < b) (h : b ≤ (encode cs).length) :
    ∃ front c rest, cs = front ++ [c] ++ rest ∧ (encode front).length < b ∧
      b ≤ (encode (front ++ [c])).length := by
  induction cs using List.reverseRecOn with
  | nil => exact absurd hb (Nat.not_lt.mpr h)
  | append_singleton cs c ih =>
    by_cases hle : b ≤ (encode cs).length
    · obtain ⟨front, d, rest, rfl, hlow, hhigh⟩ := ih hle
      exact ⟨front, d, rest ++ [c], by simp, hlow, hhigh⟩
    · exact ⟨cs, c, [], by simp, Nat.not_le.mp hle, h⟩

/-- An offset in or at the end of a character has just the characters up to that one started before
it. -/
theorem Utf8.startedBefore_eq {front rest : List Char} {c : Char} {b : Nat}
    (hlow : (encode front).length < b) (hhigh : b ≤ (encode (front ++ [c])).length) :
    startedBefore (front ++ [c] ++ rest) b = List.range (front ++ [c]).length := by
  have hfront : startOf (front ++ [c] ++ rest) front.length = (encode front).length := by
    rw [startOf, List.append_assoc, List.take_left]
  have hnext : startOf (front ++ [c] ++ rest) (front ++ [c]).length = (encode (front ++ [c])).length := by
    rw [startOf, List.take_left]
  have hstarted : ∀ i ∈ List.range (front ++ [c]).length, startOf (front ++ [c] ++ rest) i < b := by
    intro i hi
    rw [List.mem_range, List.length_append, List.length_singleton] at hi
    have hle := startOf_mono (front ++ [c] ++ rest) (Nat.le_of_lt_succ hi)
    omega
  have hlater : ∀ i, (front ++ [c]).length ≤ i → ¬ startOf (front ++ [c] ++ rest) i < b := by
    intro i hi
    have hle := startOf_mono (front ++ [c] ++ rest) hi
    omega
  rw [startedBefore, List.length_append, List.range_add, List.filter_append,
    List.filter_eq_self.mpr (by simpa using hstarted), List.filter_eq_nil_iff.mpr, List.append_nil]
  intro i hi
  obtain ⟨j, _, rfl⟩ := List.mem_map.mp hi
  simpa using hlater _ (Nat.le_add_right _ j)

theorem lineOf_le (front rest : List Char) {i : Nat} (h : i ≤ front.length) :
    lineOf (front ++ rest) i ≤ front.count '\n' := by
  rw [lineOf, List.take_append_of_le_length h]
  exact (List.take_sublist i front).count_le _

/-- The position behind some characters of a text counts the line feeds among them, and those of them on
the last line. -/
theorem Position.after_counts (front rest : List Char) :
    Position.after front =
      ⟨(List.range front.length).countP fun i => (front ++ rest)[i]? = some '\n',
        (List.range front.length).countP fun i => lineOf (front ++ rest) i = front.count '\n'⟩ := by
  induction front using List.reverseRecOn generalizing rest with
  | nil => rfl
  | append_singleton front c ih =>
    have hnext : (front ++ c :: rest)[front.length]? = some c := by simp
    have hline : lineOf (front ++ c :: rest) front.length = front.count '\n' := by simp [lineOf]
    rw [Position.after_append, ih (c :: rest), List.append_assoc, List.singleton_append,
      List.length_append, List.length_singleton, List.range_succ, List.countP_append, List.countP_append,
      List.countP_singleton, List.countP_singleton, hnext, hline, List.count_append]
    by_cases hc : c = '\n'
    · subst hc
      have hnone : (List.range front.length).countP
          (fun i => lineOf (front ++ '\n' :: rest) i = front.count '\n' + 1) = 0 := by
        rw [List.countP_eq_zero]
        intro i hi
        have hle := lineOf_le front ('\n' :: rest) (Nat.le_of_lt (List.mem_range.mp hi))
        simp only [decide_eq_true_eq]
        omega
      simp [Text.advance, hnone]
    · simp [Text.advance, hc]

/-- A place in a text has the position behind the characters that start before it. -/
theorem Source.position_pointAt (cs : List Char) {b : Nat} (h : b ≤ (Utf8.encode cs).length) :
    ∃ front rest, cs = front ++ rest ∧ Utf8.startedBefore cs b = List.range front.length ∧
      (ofChars cs).position ((ofChars cs).pointAt b) = .after front := by
  by_cases hb : b = 0
  · subst hb
    have hnone : Utf8.startedBefore cs 0 = [] := by simp [Utf8.startedBefore]
    have hstart : (ofChars cs).pointAt 0 = .after [] := pointAt_after List.nil_prefix
    exact ⟨[], cs, rfl, hnone, by rw [hstart, position_after List.nil_prefix]⟩
  · obtain ⟨front, c, rest, rfl, hlow, hhigh⟩ := Utf8.exists_last_started cs (Nat.pos_of_ne_zero hb) h
    refine ⟨front ++ [c], rest, rfl, Utf8.startedBefore_eq hlow hhigh, ?_⟩
    rw [Utf8.encode_concat, List.length_append] at hhigh
    -- The bytes of the character that stand before the place.
    let cut := (String.utf8EncodeChar c).take (b - (Utf8.encode front).length)
    have hlength : (Utf8.encode front ++ cut).length = b := by
      simp only [cut, List.length_append, List.length_take]
      omega
    have hne : cut ≠ [] := by
      intro hnil
      rw [hnil, List.append_nil] at hlength
      omega
    have hcut : cut <+: String.utf8EncodeChar c := List.take_prefix _ _
    have hposition := position_cut front rest hcut hne
    rwa [hlength] at hposition

theorem Source.position_eq_counts (cs : List Char) {b : Nat} (h : b ≤ (Utf8.encode cs).length) :
    let started := Utf8.startedBefore cs b
    let line := started.countP fun i => cs[i]? = some '\n'
    (ofChars cs).position ((ofChars cs).pointAt b) =
      ⟨line, started.countP fun i => lineOf cs i = line⟩ := by
  obtain ⟨front, rest, rfl, hstarted, hposition⟩ := position_pointAt cs h
  obtain ⟨_, hline, _⟩ := Position.after_line front []
  have hcounts := Position.after_counts front rest
  rw [hcounts, Position.mk.injEq, Int.natCast_inj] at hline
  intro started line
  have hfeeds : line = front.count '\n' := by
    simp only [line, started, hstarted, hline.1]
  rw [hposition, hcounts]
  simp only [hfeeds, started, hstarted, hline.1]

/-- The front of the text that an offset stands for can only grow, so positions never go back, not
even between two offsets in one character. -/
theorem Source.position_pointAt_mono (cs : List Char) {b b' : Nat} (h : b ≤ b')
    (h' : b' ≤ (Utf8.encode cs).length) :
    let src := ofChars cs
    src.position (src.pointAt b) ≤ src.position (src.pointAt b') := by
  intro src
  obtain ⟨front, rest, hcs, hstarted, hposition⟩ := position_pointAt cs (Nat.le_trans h h')
  obtain ⟨front', rest', hcs', hstarted', hposition'⟩ := position_pointAt cs h'
  have hlength := Utf8.startedBefore_mono cs h
  rw [hstarted, hstarted', List.length_range, List.length_range] at hlength
  rw [hposition, hposition']
  exact Position.after_le
    (List.prefix_of_prefix_length_le ⟨rest, hcs.symm⟩ ⟨rest', hcs'.symm⟩ hlength)

/-- A text is encodable or has a first surrogate, with characters only in front of it. -/
theorem Text.ofChars_or_surrogate (t : Text) :
    (∃ cs, t = ofChars cs) ∨ ∃ front half rest, t = ofChars front ++ .surrogate half :: rest := by
  induction t with
  | nil => exact .inl ⟨[], rfl⟩
  | cons c t ih =>
    cases c with
    | surrogate half => exact .inr ⟨[], half, t, rfl⟩
    | char c =>
      rcases ih with ⟨cs, rfl⟩ | ⟨front, half, rest, rfl⟩
      · exact .inl ⟨c :: cs, rfl⟩
      · exact .inr ⟨c :: front, half, rest, rfl⟩

/-- The surrogate is refused at its own place before the grammar is asked. -/
theorem Text.parseWith_surrogate (front : List Char) (half : Fin 0x800) (rest : Text) (version : String)
    (tree? : List Char → Option ParseTree) :
    let t := ofChars front ++ .surrogate half :: rest
    t.parseWith version tree? =
      .error (.failure ⟨.invalidCharacter, some (t.placeOf front.length)⟩) := by
  intro t
  have hfirst : t.firstSurrogate? = some front.length := by
    rw [firstSurrogate?_append]
    simp [firstSurrogate?, CodePoint.isSurrogate, List.findIdx?_cons]
  have hle : front.length ≤ t.length := by simp [t, ofChars]
  simp only [parseWith, hfirst, positionOf_eq_placeOf hle]

/-- The cause lies in the parse tree: in its marks, or in a jump. -/
def Cause.InTree (cause : Cause) : Prop := cause.isSyntax = true ∨ ∃ word, cause = .jump word

/-- Lowering fails for the marks of the tree or for a jump, and for nothing else. -/
theorem ParseTree.cause_of_lower {t : ParseTree} {src : Source} {version : String} {f : ParseFailure}
    (h : t.lower src version = .error (.failure f)) : f.cause.InTree := by
  unfold lower at h
  split at h
  · cases h
    left
    unfold describeError
    split
    · rfl
    · dsimp only
      split <;> rfl
  · have hstops := (Outline.stops_resolveAll src version t.outline).bind fun body => .ok (Node.chunk body)
    cases hstops _ h with
    | jump word p => exact .inr ⟨word, rfl⟩

theorem Text.cause_of_parseWith {cs : List Char} {version : String}
    {tree? : List Char → Option ParseTree} {f : ParseFailure}
    (h : (ofChars cs).parseWith version tree? = .error (.failure f)) :
    f.cause.InTree := by
  cases htree : tree? cs with
  | none =>
    simp only [parseWith, firstSurrogate?_ofChars, chars_ofChars, htree] at h
    cases h
    exact .inl rfl
  | some tree =>
    rw [parseWith_ofChars htree] at h
    exact ParseTree.cause_of_lower h

/-- No other failure borrows the message about surrogates, whatever word a jump quotes. -/
theorem ParseFailure.message_ne_invalid {f : ParseFailure} (h : f.cause.InTree) :
    f.message ≠ "Invalid character in source" := by
  obtain ⟨cause, p⟩ := f
  intro hmessage
  cases cause with
  | malformed | unexpected => exact absurd hmessage (by simp [message])
  | missing kind =>
    have hhead := head?_missing kind p
    simp [hmessage] at hhead
  | jump word =>
    have hhead := head?_jump word p
    simp [hmessage] at hhead
  | invalidCharacter | reported _ =>
    rcases h with h | ⟨word, h⟩ <;> cases h

/-- A place in encoded text, also one in the bytes of a character, has the position that counts the line
feeds before it and the characters of its line that start before it. Between two characters this is the
position of the index in the text. Places in order have positions in order, so there is always a range
between them. A text is refused for an invalid character exactly if it has a lone surrogate, at the
position of the index of the first one. -/
theorem Text.positions_agree (cs : List Char) (t : Text) (version : String)
    (tree? : List Char → Option ParseTree) :
    let src := Source.ofChars cs
    (∀ b ≤ src.bytes.size,
      let started := Utf8.startedBefore cs b
      let line := started.countP fun i => cs[i]? = some '\n'
      src.position (src.pointAt b) = ⟨line, started.countP fun i => lineOf cs i = line⟩) ∧
    (∀ j ≤ cs.length, src.position (src.pointAt (Utf8.startOf cs j)) = (ofChars cs).placeOf j) ∧
    (∀ b b', b ≤ b' → b' ≤ src.bytes.size →
      src.position (src.pointAt b) ≤ src.position (src.pointAt b') ∧
      ∃ r, src.range ⟨src.pointAt b, src.pointAt b'⟩ = .ok r ∧
        r.start = src.position (src.pointAt b) ∧ r.stop = src.position (src.pointAt b')) ∧
    ((∃ f, t.parseWith version tree? = .error (.failure f) ∧
        f.message = "Invalid character in source") ↔ ∃ c ∈ t, c.isSurrogate = true) ∧
    ∀ front half rest, t = ofChars front ++ .surrogate half :: rest →
      ∃ f, t.parseWith version tree? = .error (.failure f) ∧
        f.message = "Invalid character in source" ∧ f.position = some (t.placeOf front.length) := by
  intro src
  have hsize : src.bytes.size = (Utf8.encode cs).length := rfl
  rw [hsize]
  refine ⟨fun b hb => Source.position_eq_counts cs hb, ?_, ?_, ?_, ?_⟩
  · intro j hj
    rw [Utf8.startOf, Source.pointAt_after (List.take_prefix j cs),
      Source.position_after (List.take_prefix j cs), Position.after_take hj]
  · intro b b' h h'
    have hle := Source.position_pointAt_mono cs h h'
    refine ⟨hle, ⟨_, _, hle⟩, ?_, rfl, rfl⟩
    simp [Source.range, Range.between, Range.ofPositions?, src, hle]
  -- Without a surrogate no failure has this message; with one it is the only failure.
  · rcases t.ofChars_or_surrogate with ⟨chars, rfl⟩ | ⟨front, half, rest, rfl⟩
    · refine iff_of_false ?_ ?_
      · rintro ⟨f, hf, hmessage⟩
        exact ParseFailure.message_ne_invalid (cause_of_parseWith hf) hmessage
      · simp [ofChars, CodePoint.isSurrogate]
    · refine iff_of_true ⟨_, parseWith_surrogate front half rest version tree?, rfl⟩ ?_
      exact ⟨.surrogate half, by simp, rfl⟩
  · rintro front half rest rfl
    exact ⟨_, parseWith_surrogate front half rest version tree?, rfl, rfl⟩

def severed : List Char := "é\n€😀x".toList

/-- Offsets inside characters of two, three and four bytes, and a surrogate in the second line. -/
theorem Text.positions_agree_severed :
    let src := Source.ofChars severed
    let t := ofChars severed ++ [.surrogate 0, .char '\n']
    src.pointAt 8 = ⟨8, 1, 5⟩ ∧ src.position ⟨8, 1, 5⟩ = ⟨1, 2⟩ ∧
    Utf8.startOf severed 4 = 10 ∧ src.position (src.pointAt 10) = ⟨1, 2⟩ ∧
    (∃ r, src.range ⟨src.pointAt 4, src.pointAt 8⟩ = .ok r ∧ r.start = ⟨1, 1⟩ ∧ r.stop = ⟨1, 2⟩) ∧
    ∃ f, t.parseWith "5.4" Lua.parseTree? = .error (.failure f) ∧
      f.message = "Invalid character in source" ∧ f.position = some ⟨1, 3⟩ := by
  intro src t
  obtain ⟨hcounts, hindex, hrange, _, hfirst⟩ := positions_agree severed t "5.4" Lua.parseTree?
  have hsize : (Source.ofChars severed).bytes.size = 11 := by decide +kernel
  rw [hsize] at hcounts hrange
  have hpoint : src.pointAt 8 = ⟨8, 1, 5⟩ := by decide +kernel
  have hcut : src.position (src.pointAt 8) = ⟨1, 2⟩ := (hcounts 8 (by decide)).trans (by decide +kernel)
  have hcut' : src.position (src.pointAt 4) = ⟨1, 1⟩ := (hcounts 4 (by decide)).trans (by decide +kernel)
  have hstart : Utf8.startOf severed 4 = 10 := by decide +kernel
  have hbetween : src.position (src.pointAt 10) = ⟨1, 2⟩ := by
    rw [← hstart]
    exact (hindex 4 (by decide)).trans (by decide +kernel)
  obtain ⟨_, r, hr, hrstart, hrstop⟩ := hrange 4 8 (by decide) (by decide)
  obtain ⟨f, hparse, hmessage, hposition⟩ := hfirst severed 0 [.char '\n'] rfl
  have hplace : t.placeOf severed.length = ⟨1, 3⟩ := by decide +kernel
  exact ⟨hpoint, hpoint ▸ hcut, hstart, hbetween, ⟨r, hr, hrstart.trans hcut', hrstop.trans hcut⟩, f,
    hparse, hmessage, hplace ▸ hposition⟩

end LuaSymbols
