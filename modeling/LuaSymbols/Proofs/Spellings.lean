import LuaSymbols.Proofs.Identities

namespace LuaSymbols.Identity

def separators : List (List Char) := [[':'], ['%', '3', 'A'], ['%', '3', 'a']]

structure Drive where
  front : List Char
  letter : Char
  separator : List Char
  rest : List Char
  front_mem : front ∈ [[], scheme]
  letter_isAlpha : letter.isAlpha = true
  separator_mem : separator ∈ separators

def Drive.chars (d : Drive) : List Char := d.front ++ d.letter :: (d.separator ++ d.rest)

structure Drive.Alike (d e : Drive) : Prop where
  front : d.front = e.front
  letter : d.letter.toLower = e.letter.toLower
  separator : d.separator.map Char.toLower = e.separator.map Char.toLower
  rest : d.rest = e.rest

theorem Drive.Alike.symm {d e : Drive} (h : d.Alike e) : e.Alike d :=
  ⟨h.front.symm, h.letter.symm, h.separator.symm, h.rest.symm⟩

/-- Names that are one up to the case of a leading drive. -/
def SameButDrive (cs ds : List Char) : Prop :=
  cs = ds ∨ ∃ d e : Drive, cs = d.chars ∧ ds = e.chars ∧ d.Alike e

variable {sep sep' rest rest' : List Char}

theorem mem_separators :
    sep ∈ separators ↔ sep = [':'] ∨ sep = ['%', '3', 'A'] ∨ sep = ['%', '3', 'a'] := by
  simp [separators]

theorem toUpper_separator (h : sep ∈ separators) :
    sep.map Char.toUpper = [':'] ∨ sep.map Char.toUpper = ['%', '3', 'A'] := by
  rcases mem_separators.mp h with rfl | rfl | rfl <;> decide

/-- Only the case of a separator is lost when it is folded. -/
theorem toUpper_separator_iff (h : sep ∈ separators) (h' : sep' ∈ separators) :
    sep.map Char.toUpper = sep'.map Char.toUpper ↔ sep.map Char.toLower = sep'.map Char.toLower := by
  rcases mem_separators.mp h with rfl | rfl | rfl <;>
    rcases mem_separators.mp h' with rfl | rfl | rfl <;> decide

/-- A separator ends where it ends in every text. -/
theorem separator_append_inj (h : sep ∈ separators) (h' : sep' ∈ separators)
    (he : sep ++ rest = sep' ++ rest') : sep = sep' ∧ rest = rest' := by
  rcases mem_separators.mp h with rfl | rfl | rfl <;>
    rcases mem_separators.mp h' with rfl | rfl | rfl <;> simp_all

/-- The separators that are read are just the three of the list, and their final spelling is in
capitals. -/
theorem separator?_eq_some_iff {cs spelled : List Char} : separator? cs = some (spelled, rest) ↔
    ∃ sep ∈ separators, cs = sep ++ rest ∧ spelled = sep.map Char.toUpper := by
  constructor
  · intro h
    unfold separator? at h
    split at h <;> cases h
    · exact ⟨[':'], by decide, rfl, by decide⟩
    · exact ⟨['%', '3', 'A'], by decide, rfl, by decide⟩
    · exact ⟨['%', '3', 'a'], by decide, rfl, by decide⟩
  · rintro ⟨sep, hsep, rfl, rfl⟩
    rcases mem_separators.mp hsep with rfl | rfl | rfl <;> rfl

/-- A drive is a letter, one of the separators, and anything after them. The separator is the
longest one by force: no two of them start alike. -/
theorem drive?_eq_some_iff {cs ds : List Char} : drive? cs = some ds ↔
    ∃ letter, ∃ sep ∈ separators, ∃ rest, letter.isAlpha = true ∧ cs = letter :: (sep ++ rest) ∧
      ds = letter.toLower :: (sep.map Char.toUpper ++ rest) := by
  constructor
  · intro h
    cases cs with
    | nil => cases h
    | cons letter tail =>
      simp only [drive?] at h
      split at h
      · rename_i halpha
        obtain ⟨⟨spelled, rest⟩, hread, rfl⟩ := Option.map_eq_some_iff.mp h
        obtain ⟨sep, hsep, rfl, rfl⟩ := separator?_eq_some_iff.mp hread
        exact ⟨letter, sep, hsep, rest, halpha, rfl, rfl⟩
      · cases h
  · rintro ⟨letter, sep, hsep, rest, halpha, rfl, rfl⟩
    have hread : separator? (sep ++ rest) = some (sep.map Char.toUpper, rest) :=
      separator?_eq_some_iff.mpr ⟨sep, hsep, rfl, rfl⟩
    simp only [drive?, halpha, ↓reduceIte, hread, Option.map_some, List.cons_append]

namespace Drive

def folded (d : Drive) : Drive where
  front := d.front
  letter := d.letter.toLower
  separator := d.separator.map Char.toUpper
  rest := d.rest
  front_mem := d.front_mem
  letter_isAlpha := isAlpha_iff.mpr (.inr (isLower_toLower d.letter_isAlpha))
  separator_mem := by
    rcases toUpper_separator d.separator_mem with h | h <;> simp [h, separators]

theorem alike_folded (d : Drive) : d.Alike d.folded where
  front := rfl
  letter := (toLower_of_isLower (isLower_toLower d.letter_isAlpha)).symm
  separator := by
    rw [← toUpper_separator_iff d.separator_mem d.folded.separator_mem]
    rcases toUpper_separator d.separator_mem with h | h <;> simp [folded, h]
  rest := rfl

theorem front_cases (d : Drive) : d.front = [] ∨ d.front = scheme := by
  simpa using d.front_mem

/-- A letter and a separator do not start a scheme. -/
theorem not_scheme (d : Drive) : ¬ scheme <+: d.letter :: (d.separator ++ d.rest) := by
  rintro ⟨more, h⟩
  rcases mem_separators.mp d.separator_mem with hsep | hsep | hsep <;> simp [hsep, scheme_chars] at h

/-- Folding finds the drive of a name. -/
theorem foldDrive_chars (d : Drive) : foldDrive d.chars = d.folded.chars := by
  have hdrive := drive?_eq_some_iff.mpr
    ⟨d.letter, d.separator, d.separator_mem, d.rest, d.letter_isAlpha, rfl, rfl⟩
  rcases d.front_cases with hfront | hfront
  · have hscheme : scheme.isPrefixOf (d.letter :: (d.separator ++ d.rest)) = false := by
      rw [← Bool.not_eq_true, List.isPrefixOf_iff_prefix]
      exact d.not_scheme
    simp [foldDrive, chars, folded, hfront, hscheme, hdrive]
  · simp [foldDrive, chars, folded, hfront, hdrive]

/-- A name has its parts in one way only. -/
theorem chars_inj {d e : Drive} (h : d.chars = e.chars) : d.front = e.front ∧
    d.letter = e.letter ∧ d.separator = e.separator ∧ d.rest = e.rest := by
  have hfront : d.front = e.front := by
    rcases d.front_cases with hd | hd <;> rcases e.front_cases with he | he <;> rw [hd, he]
    · exact False.elim (d.not_scheme ⟨_, by simpa [chars, hd, he] using h.symm⟩)
    · exact False.elim (e.not_scheme ⟨_, by simpa [chars, hd, he] using h⟩)
  rw [chars, chars, hfront] at h
  obtain ⟨hletter, htail⟩ := List.cons.inj (List.append_cancel_left h)
  exact ⟨hfront, hletter, separator_append_inj d.separator_mem e.separator_mem htail⟩

/-- The final spellings of two names are the same if and only if the names differ in case at most. -/
theorem folded_chars_iff {d e : Drive} : d.folded.chars = e.folded.chars ↔ d.Alike e := by
  constructor
  · intro h
    obtain ⟨hfront, hletter, hseparator, hrest⟩ := chars_inj h
    exact ⟨hfront, hletter, (toUpper_separator_iff d.separator_mem e.separator_mem).mp hseparator, hrest⟩
  · intro h
    have hseparator := (toUpper_separator_iff d.separator_mem e.separator_mem).mpr h.separator
    simp only [chars, folded, h.front, h.letter, h.rest, hseparator]

end Drive

/-- A name starts with a drive, or folding leaves it alone. -/
theorem exists_drive_or_fixed (cs : List Char) : (∃ d : Drive, cs = d.chars) ∨ foldDrive cs = cs := by
  rcases foldDrive_cases cs with ⟨rest, ds, rfl, hdrive, _⟩ | ⟨ds, hdrive, _⟩ | hfixed
  · obtain ⟨letter, sep, hsep, rest, halpha, rfl, _⟩ := drive?_eq_some_iff.mp hdrive
    exact .inl ⟨⟨scheme, letter, sep, rest, by simp, halpha, hsep⟩, rfl⟩
  · obtain ⟨letter, sep, hsep, rest, halpha, rfl, _⟩ := drive?_eq_some_iff.mp hdrive
    exact .inl ⟨⟨[], letter, sep, rest, by simp, halpha, hsep⟩, rfl⟩
  · exact .inr hfixed

/-- Two names fold to one exactly if they differ in the case of a leading drive. Where neither has a
drive both are left as they are, and a name with one never folds to a name without. -/
theorem foldDrive_eq_iff {cs ds : List Char} : foldDrive cs = foldDrive ds ↔ SameButDrive cs ds := by
  constructor
  · intro h
    rcases exists_drive_or_fixed cs with ⟨d, rfl⟩ | hcs <;>
      rcases exists_drive_or_fixed ds with ⟨e, rfl⟩ | hds
    · rw [d.foldDrive_chars, e.foldDrive_chars] at h
      exact .inr ⟨d, e, rfl, rfl, Drive.folded_chars_iff.mp h⟩
    · -- A name that is left alone and meets a folded drive is that folded drive.
      rw [d.foldDrive_chars, hds] at h
      exact .inr ⟨d, d.folded, rfl, h.symm, d.alike_folded⟩
    · rw [hcs, e.foldDrive_chars] at h
      exact .inr ⟨e.folded, e, h, rfl, e.alike_folded.symm⟩
    · rw [hcs, hds] at h
      exact .inl h
  · rintro (rfl | ⟨d, e, rfl, rfl, halike⟩)
    · rfl
    · rw [d.foldDrive_chars, e.foldDrive_chars, Drive.folded_chars_iff.mpr halike]

end LuaSymbols.Identity

namespace LuaSymbols

open Identity (foldSlashes SameButDrive)

/-- Two names have one identity if and only if, with slashes for backslashes, they are one up to the case
of a leading drive. An identity is its own identity and has no backslash. -/
theorem identityOf_spellings (u v : String) :
    (identityOf u = identityOf v ↔ SameButDrive (foldSlashes u.toList) (foldSlashes v.toList)) ∧
    identityOf (identityOf u) = identityOf u ∧ '\\' ∉ (identityOf u).toList := by
  refine ⟨?_, identityOf_identityOf u, ?_⟩
  · rw [identityOf, identityOf, String.ofList_inj]
    exact Identity.foldDrive_eq_iff
  · rw [identityOf, String.toList_ofList]
    exact Identity.not_mem_foldDrive (Identity.not_mem_foldSlashes u.toList)

-- The scheme itself may be written with backslashes.
example : identityOf "file:\\\\\\C%3a\\a.lua" = identityOf "file:///c%3A/a.lua" := by decide

end LuaSymbols
