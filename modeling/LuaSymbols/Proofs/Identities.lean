import LuaSymbols.Identity

namespace LuaSymbols.Identity

theorem isLower_iff {c : Char} : c.isLower = true ↔ 97 ≤ c.toNat ∧ c.toNat ≤ 122 := by
  change (decide (97 ≤ c.val) && decide (c.val ≤ 122)) = true ↔ _
  simp [UInt32.le_iff_toNat_le]

theorem isAlpha_iff {c : Char} :
    c.isAlpha = true ↔ (65 ≤ c.toNat ∧ c.toNat ≤ 90) ∨ c.isLower = true := by
  change (decide (65 ≤ c.val ∧ c.val ≤ 90) || c.isLower) = true ↔ _
  simp [UInt32.le_iff_toNat_le]

/-- Lower-casing a letter gives a small letter, so a folded drive is folded for good. -/
theorem isLower_toLower {c : Char} (h : c.isAlpha = true) : c.toLower.isLower = true := by
  rw [isAlpha_iff, isLower_iff] at h
  rw [isLower_iff]
  unfold Char.toLower
  split
  · rename_i hupper
    simp [UInt32.le_iff_toNat_le] at hupper ⊢
    omega
  · rename_i hupper
    simp [UInt32.le_iff_toNat_le] at hupper
    omega

theorem toLower_of_isLower {c : Char} (h : c.isLower = true) : c.toLower = c := by
  rw [isLower_iff] at h
  unfold Char.toLower
  split
  · rename_i hupper
    simp [UInt32.le_iff_toNat_le] at hupper
    omega
  · rfl

theorem scheme_chars : scheme = ['f', 'i', 'l', 'e', ':', '/', '/', '/'] := by decide

/-- The two separators in their final spelling are read back as they are. -/
theorem separator?_spelled {cs sep rest : List Char} (h : separator? cs = some (sep, rest)) :
    (sep = [':'] ∨ sep = ['%', '3', 'A']) ∧ separator? (sep ++ rest) = some (sep, rest) ∧
      rest ⊆ cs := by
  unfold separator? at h
  split at h
  · cases h
    exact ⟨.inl rfl, rfl, by simp⟩
  · cases h
    exact ⟨.inr rfl, rfl, fun c hc => by simp [hc]⟩
  · cases h
    exact ⟨.inr rfl, rfl, fun c hc => by simp [hc]⟩
  · cases h

/-- What a drive in its final spelling looks like. -/
theorem drive?_shape {cs ds : List Char} (h : drive? cs = some ds) :
    ∃ (letter : Char) (sep rest : List Char), letter.isAlpha = true ∧
      (sep = [':'] ∨ sep = ['%', '3', 'A']) ∧ separator? (sep ++ rest) = some (sep, rest) ∧
      rest ⊆ cs ∧ ds = letter.toLower :: (sep ++ rest) := by
  cases cs with
  | nil => cases h
  | cons letter tail =>
    simp only [drive?] at h
    split at h
    · rename_i halpha
      obtain ⟨⟨sep, rest⟩, hs, rfl⟩ := Option.map_eq_some_iff.mp h
      obtain ⟨hsep, hread, hsub⟩ := separator?_spelled hs
      exact ⟨letter, sep, rest, halpha, hsep, hread, fun c hc => by simp [hsub hc], rfl⟩
    · cases h

theorem drive?_drive? {cs ds : List Char} (h : drive? cs = some ds) : drive? ds = some ds := by
  obtain ⟨letter, sep, rest, halpha, _, hread, _, rfl⟩ := drive?_shape h
  have hlower := isLower_toLower halpha
  have halpha' : letter.toLower.isAlpha = true := isAlpha_iff.mpr (.inr hlower)
  simp only [drive?, halpha', ↓reduceIte, hread, Option.map_some, toLower_of_isLower hlower,
    List.cons_append]

/-- A drive is no scheme: its second character is a separator. -/
theorem not_scheme_drive {cs ds : List Char} (h : drive? cs = some ds) :
    scheme.isPrefixOf ds = false := by
  obtain ⟨letter, sep, rest, _, hsep, _, _, rfl⟩ := drive?_shape h
  rcases hsep with rfl | rfl <;> simp [scheme_chars, List.isPrefixOf]

/-- The three ways in which a drive is folded. -/
theorem foldDrive_cases (cs : List Char) :
    (∃ rest ds, cs = scheme ++ rest ∧ drive? rest = some ds ∧ foldDrive cs = scheme ++ ds) ∨
    (∃ ds, drive? cs = some ds ∧ foldDrive cs = ds) ∨
    foldDrive cs = cs := by
  unfold foldDrive
  split
  · rename_i ds hds
    split at hds
    · rename_i hscheme
      obtain ⟨rest, rfl⟩ := List.isPrefixOf_iff_prefix.mp hscheme
      exact .inl ⟨rest, ds, rfl, by simpa using hds, rfl⟩
    · cases hds
  · cases hd : drive? cs with
    | none => exact .inr (.inr rfl)
    | some ds => exact .inr (.inl ⟨ds, rfl, rfl⟩)

/-- The three cases of a fold each lead back to themselves: no fold makes a new drive to fold. -/
theorem foldDrive_foldDrive (cs : List Char) : foldDrive (foldDrive cs) = foldDrive cs := by
  rcases foldDrive_cases cs with ⟨rest, ds, _, hd, he⟩ | ⟨ds, hd, he⟩ | he
  · rw [he]
    simp [foldDrive, drive?_drive? hd]
  · rw [he]
    simp [foldDrive, not_scheme_drive hd, drive?_drive? hd]
  · rw [he, he]

theorem not_mem_foldSlashes (cs : List Char) : '\\' ∉ foldSlashes cs := by
  intro hm
  obtain ⟨c, _, hc⟩ := List.mem_map.mp hm
  split at hc
  · simp at hc
  · contradiction

theorem foldSlashes_of_not_mem {cs : List Char} (h : '\\' ∉ cs) : foldSlashes cs = cs := by
  have hid : foldSlashes cs = cs.map id := by
    apply List.map_congr_left
    intro c hc
    have hne : c ≠ '\\' := fun he => h (he ▸ hc)
    simp [hne]
  rw [hid, List.map_id]

theorem not_mem_drive? {cs ds : List Char} (h : drive? cs = some ds) (hcs : '\\' ∉ cs) :
    '\\' ∉ ds := by
  obtain ⟨letter, sep, rest, halpha, hsep, _, hsub, rfl⟩ := drive?_shape h
  have hletter : letter.toLower ≠ '\\' := by
    intro he
    have hlower := isLower_toLower halpha
    simp [he] at hlower
  have hrest : '\\' ∉ rest := fun hm => hcs (hsub hm)
  rcases hsep with rfl | rfl <;> simp [hrest, hletter.symm]

/-- Folding the drive puts no backslash back, so slashes are folded only once. -/
theorem not_mem_foldDrive {cs : List Char} (h : '\\' ∉ cs) : '\\' ∉ foldDrive cs := by
  rcases foldDrive_cases cs with ⟨rest, ds, rfl, hd, he⟩ | ⟨ds, hd, he⟩ | he
  · have hrest : '\\' ∉ rest := fun hm => h (List.mem_append_right _ hm)
    have hds := not_mem_drive? hd hrest
    rw [he]
    simp [scheme_chars, hds]
  · rw [he]
    exact not_mem_drive? hd h
  · rw [he]
    exact h

/-- Slashes first and the drive second is stable, because neither step undoes the other. -/
theorem normalizeChars_idem (cs : List Char) :
    normalizeChars (normalizeChars cs) = normalizeChars cs := by
  have hno : '\\' ∉ normalizeChars cs := not_mem_foldDrive (not_mem_foldSlashes cs)
  change foldDrive (foldSlashes (normalizeChars cs)) = normalizeChars cs
  rw [foldSlashes_of_not_mem hno]
  exact foldDrive_foldDrive _

end LuaSymbols.Identity

namespace LuaSymbols

@[simp] theorem identityOf_identityOf (uri : String) : identityOf (identityOf uri) = identityOf uri := by
  simp [identityOf, Identity.normalizeChars_idem]

end LuaSymbols
