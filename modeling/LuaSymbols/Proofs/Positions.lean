import LuaSymbols.Source
import LuaSymbols.Proofs.Encoding
import Mathlib.Data.List.Induction
import Mathlib.Data.List.Infix

namespace LuaSymbols

def Point.after (front : List Char) : Point := front.foldl Point.advance ⟨0, 0, 0⟩

def Position.after (front : List Char) : Position := (Text.ofChars front).foldl Text.advance .origin

def Point.In (cs : List Char) (p : Point) : Prop := ∃ front, front <+: cs ∧ p = .after front

instance (cs : List Char) (p : Point) : Decidable (p.In cs) :=
  decidable_of_iff (∃ front ∈ cs.inits, p = .after front) (by simp only [List.mem_inits, Point.In])

theorem Point.after_append (front : List Char) (c : Char) :
    Point.after (front ++ [c]) = (Point.after front).advance c := by
  simp [Point.after]

theorem Position.after_append (front : List Char) (c : Char) :
    Position.after (front ++ [c]) = Text.advance (.after front) (.char c) := by
  simp [Position.after, Text.ofChars]

theorem Utf8.length_encode_singleton (c : Char) : (Utf8.encode [c]).length = c.utf8Size := by
  simp [Utf8.encode]

/-- Both ways of counting agree on the line, and differ in the last line only by what they count. -/
theorem Point.after_lastLine (front : List Char) : ∃ head line, front = head ++ line ∧
    (Point.after front).offset = (Utf8.encode front).length ∧
    (Point.after front).column = (Utf8.encode line).length ∧
    Position.after front = ⟨(Point.after front).row, line.length⟩ := by
  induction front using List.reverseRecOn with
  | nil => exact ⟨[], [], rfl, rfl, rfl, rfl⟩
  | append_singleton front c ih =>
    obtain ⟨head, line, hfront, hoffset, hcolumn, hposition⟩ := ih
    rw [Point.after_append, Position.after_append, hposition, Utf8.encode_append, List.length_append,
      Utf8.length_encode_singleton]
    by_cases hc : c = '\n'
    · subst hc
      refine ⟨front ++ ['\n'], [], by simp, ?_, rfl, ?_⟩
      · simp only [Point.advance, ↓reduceIte, hoffset]
        rfl
      · simp [Point.advance, Text.advance]
    · refine ⟨head, line ++ [c], by simp [hfront], ?_, ?_, ?_⟩
      · simp [Point.advance, hc, hoffset]
      · simp [Point.advance, hc, hcolumn, Utf8.encode_append, Utf8.length_encode_singleton]
      · simp [Point.advance, Text.advance, hc]

theorem Source.slice_of_bytes {src : Source} {before mid behind : List UInt8}
    (h : src.bytes.toList = before ++ mid ++ behind) :
    src.slice before.length (before.length + mid.length) = Utf8.decode mid := by
  simp [slice, h, List.extract_eq_take_drop]

/-- A stretch of a text is cut out by the numbers of bytes before it and in it. -/
theorem Source.slice_between (head line rest : List Char) :
    (Source.ofChars (head ++ line ++ rest)).slice (Utf8.encode head).length
      ((Utf8.encode head).length + (Utf8.encode line).length) = line := by
  have hbytes : (Source.ofChars (head ++ line ++ rest)).bytes.toList =
      Utf8.encode head ++ Utf8.encode line ++ Utf8.encode rest := by
    simp [Source.ofChars, Utf8.encode_append]
  rw [Source.slice_of_bytes hbytes, Utf8.decode_encode]

/-- The heart of the matter: the column in bytes, cut out and counted, is the column in
characters. -/
theorem Source.position_after {cs front : List Char} (h : front <+: cs) :
    (Source.ofChars cs).position (.after front) = .after front := by
  obtain ⟨rest, rfl⟩ := h
  obtain ⟨head, line, rfl, hoffset, hcolumn, hposition⟩ := Point.after_lastLine front
  rw [Utf8.encode_append, List.length_append] at hoffset
  have hstart : (Point.after (head ++ line)).offset - (Point.after (head ++ line)).column =
      (Utf8.encode head).length := by omega
  rw [Source.position, hstart, hoffset, Source.slice_between, hposition]

theorem Position.lt_advance (p : Position) (c : CodePoint) : p < Text.advance p c := by
  rw [Position.lt_def]
  unfold Text.advance
  split <;> simp

theorem Position.lt_trans {p q r : Position} (hpq : p < q) (hqr : q < r) : p < r := by
  simp only [Position.lt_def] at *
  omega

/-- Text that follows moves a position strictly forward, whether or not it has line feeds. -/
theorem Position.after_lt (front : List Char) {more : List Char} (h : more ≠ []) :
    Position.after front < Position.after (front ++ more) := by
  induction more using List.reverseRecOn with
  | nil => contradiction
  | append_singleton more c ih =>
    rw [← List.append_assoc, Position.after_append]
    by_cases hmore : more = []
    · subst hmore
      simpa using Position.lt_advance _ _
    · exact Position.lt_trans (ih hmore) (Position.lt_advance _ _)

theorem Position.le_of_lt {p q : Position} (h : p < q) : p ≤ q := by
  simp only [Position.lt_def, Position.le_def] at *
  omega

theorem Position.after_le {front front' : List Char} (h : front <+: front') :
    Position.after front ≤ Position.after front' := by
  obtain ⟨more, rfl⟩ := h
  by_cases hmore : more = []
  · subst hmore
    rw [List.append_nil]
    exact Position.le_refl _
  · exact Position.le_of_lt (Position.after_lt front hmore)

theorem Utf8.encode_eq_nil {cs : List Char} (h : (Utf8.encode cs).length = 0) : cs = [] := by
  cases cs with
  | nil => rfl
  | cons c cs =>
    have hsize := c.utf8Size_pos
    rw [Utf8.encode_cons, List.length_append, String.length_utf8EncodeChar] at h
    omega

variable {cs : List Char} {p q : Point}

/-- Of two places in a text the later one stands some characters further. -/
theorem Point.In.cases (hp : p.In cs) (hq : q.In cs) (h : p.offset ≤ q.offset) :
    ∃ front more, p = .after front ∧ q = .after (front ++ more) ∧ front ++ more <+: cs := by
  obtain ⟨front, hfront, rfl⟩ := hp
  obtain ⟨front', hfront', rfl⟩ := hq
  obtain ⟨_, _, _, hoffset, _⟩ := Point.after_lastLine front
  obtain ⟨_, _, _, hoffset', _⟩ := Point.after_lastLine front'
  rcases List.prefix_or_prefix_of_prefix hfront hfront' with ⟨more, rfl⟩ | ⟨more, rfl⟩
  · exact ⟨front, more, rfl, rfl, hfront'⟩
  · -- The second is not behind the first, so nothing stands between them.
    rw [hoffset, hoffset', Utf8.encode_append, List.length_append] at h
    have hnone : (Utf8.encode more).length = 0 := by omega
    obtain rfl := Utf8.encode_eq_nil hnone
    exact ⟨front', [], by simp, by simp, by simpa using hfront⟩

/-- Byte offsets and positions are in the same order, so sorting by the one sorts by the other. -/
theorem Source.position_lt (hp : p.In cs) (hq : q.In cs) (h : p.offset < q.offset) :
    (Source.ofChars cs).position p < (Source.ofChars cs).position q := by
  obtain ⟨front, more, rfl, rfl, hprefix⟩ := hp.cases hq (Nat.le_of_lt h)
  have hmore : more ≠ [] := by
    rintro rfl
    simp at h
  rw [Source.position_after hprefix, Source.position_after ((List.prefix_append _ _).trans hprefix)]
  exact Position.after_lt front hmore

theorem Source.position_le (hp : p.In cs) (hq : q.In cs) (h : p.offset ≤ q.offset) :
    (Source.ofChars cs).position p ≤ (Source.ofChars cs).position q := by
  obtain ⟨front, more, rfl, rfl, hprefix⟩ := hp.cases hq h
  rw [Source.position_after hprefix, Source.position_after ((List.prefix_append _ _).trans hprefix)]
  exact Position.after_le (List.prefix_append front more)

end LuaSymbols
