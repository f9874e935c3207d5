import LuaSymbols.Table
import Mathlib.Data.List.Basic

namespace LuaSymbols.Table

variable {α β : Type}

@[simp] theorem get?_nil (key : String) : get? ([] : Table α) key = none := rfl

theorem get?_cons (k : String) (v : α) (t : Table α) (key : String) :
    get? ((k, v) :: t) key = if k = key then some v else t.get? key := by
  by_cases h : k = key <;> simp [get?, h]

theorem put_cons (k : String) (v : α) (t : Table α) (key : String) (value : α) :
    put key value ((k, v) :: t) =
      if k = key then (k, value) :: t else (k, v) :: t.put key value := rfl

theorem remove_cons (k : String) (v : α) (t : Table α) (key : String) :
    remove ((k, v) :: t) key = if k = key then t.remove key else (k, v) :: t.remove key := by
  by_cases h : k = key <;> simp [remove, h]

@[simp] theorem keys_cons (k : String) (v : α) (t : Table α) :
    keys ((k, v) :: t) = k :: t.keys := rfl

/-- Asking whether a key is there and looking it up never disagree, so lemmas are stated about
look-ups only. -/
theorem has_eq_isSome (t : Table α) (key : String) : t.has key = (t.get? key).isSome := by
  induction t with
  | nil => rfl
  | cons entry t ih =>
    obtain ⟨k, v⟩ := entry
    rw [get?_cons]
    by_cases h : k = key
    · simp [has, h]
    · have hhas : has ((k, v) :: t) key = has t key := by simp [has, h]
      rw [hhas, if_neg h, ih]

theorem has_iff {t : Table α} {key : String} : t.has key = true ↔ ∃ value, t.get? key = some value := by
  rw [has_eq_isSome, Option.isSome_iff_exists]

theorem not_has_iff {t : Table α} {key : String} : ¬ t.has key = true ↔ t.get? key = none := by
  rw [has_eq_isSome, Bool.not_eq_true, Option.isSome_eq_false_iff, Option.isNone_iff_eq_none]

theorem mem_keys_iff {t : Table α} {key : String} : key ∈ t.keys ↔ t.has key = true := by
  simp [keys, has]

/-- A write shows under its own key and nowhere else. -/
theorem get?_put (t : Table α) (key : String) (value : α) (other : String) :
    (t.put key value).get? other = if key = other then some value else t.get? other := by
  induction t with
  | nil => simp [put, get?_cons]
  | cons entry t ih =>
    obtain ⟨k, v⟩ := entry
    rw [put_cons]
    by_cases hk : k = key
    · subst hk
      simp only [↓reduceIte, get?_cons]
      split <;> rfl
    · simp only [hk, ↓reduceIte, get?_cons, ih]
      by_cases ho : k = other
      · have hne : key ≠ other := fun he => hk (ho.trans he.symm)
        simp [ho, hne]
      · simp [ho]

@[simp] theorem get?_put_self (t : Table α) (key : String) (value : α) :
    (t.put key value).get? key = some value := by
  simp [get?_put]

/-- Removal empties its own key and no other. -/
theorem get?_remove (t : Table α) (key other : String) :
    (t.remove key).get? other = if key = other then none else t.get? other := by
  induction t with
  | nil => simp [remove]
  | cons entry t ih =>
    obtain ⟨k, v⟩ := entry
    rw [remove_cons]
    by_cases hk : k = key
    · subst hk
      simp only [↓reduceIte, get?_cons, ih]
      split <;> rfl
    · simp only [hk, ↓reduceIte, get?_cons, ih]
      by_cases ho : k = other
      · have hne : key ≠ other := fun he => hk (ho.trans he.symm)
        simp [ho, hne]
      · simp [ho]

/-- Writing what is already there changes nothing. -/
theorem put_get? {t : Table α} {key : String} {value : α} (h : t.get? key = some value) :
    t.put key value = t := by
  induction t with
  | nil => simp at h
  | cons entry t ih =>
    obtain ⟨k, v⟩ := entry
    rw [get?_cons] at h
    by_cases hk : k = key
    · simp only [hk, ↓reduceIte, Option.some.injEq] at h
      simp [put_cons, hk, h]
    · simp only [hk, ↓reduceIte] at h
      simp [put_cons, hk, ih h]

/-- A write is lost with its key, and is not touched by the removal of another. -/
theorem remove_put (t : Table α) (key : String) (value : α) (other : String) :
    (t.put key value).remove other =
      if key = other then t.remove other else (t.remove other).put key value := by
  induction t with
  | nil =>
    rw [put, remove_cons]
    rfl
  | cons entry t ih =>
    obtain ⟨k, v⟩ := entry
    rw [put_cons, remove_cons]
    by_cases hk : k = key
    · subst hk
      rw [if_pos rfl, remove_cons]
      by_cases ho : k = other
      · rw [if_pos ho, if_pos ho, if_pos ho]
      · rw [if_neg ho, if_neg ho, if_neg ho, put_cons, if_pos rfl]
    · rw [if_neg hk, remove_cons, ih]
      by_cases ho : k = other
      · rw [if_pos ho, if_pos ho]
      · rw [if_neg ho, if_neg ho]
        split
        · rfl
        · rw [put_cons, if_neg hk]

theorem remove_remove (t : Table α) (key other : String) :
    (t.remove key).remove other = (t.remove other).remove key := by
  simp only [remove, List.filter_filter, Bool.and_comm]

theorem remove_remove_self (t : Table α) (key : String) :
    (t.remove key).remove key = t.remove key := by
  simp only [remove, List.filter_filter, Bool.and_self]

theorem get?_remove_of_ne (t : Table α) {key other : String} (h : other ≠ key) :
    (t.remove key).get? other = t.get? other := by
  rw [get?_remove, if_neg h.symm]

theorem has_remove_of_ne (t : Table α) {key other : String} (h : other ≠ key) :
    (t.remove key).has other = t.has other := by
  rw [has_eq_isSome, has_eq_isSome, get?_remove_of_ne t h]

/-- A known key keeps its place, a new one comes last. -/
theorem keys_put (t : Table α) (key : String) (value : α) :
    (t.put key value).keys = if key ∈ t.keys then t.keys else t.keys ++ [key] := by
  induction t with
  | nil => simp [put, keys]
  | cons entry t ih =>
    obtain ⟨k, v⟩ := entry
    rw [put_cons]
    by_cases hk : k = key
    · simp [hk]
    · have hne : ¬ key = k := fun he => hk he.symm
      simp only [hk, ↓reduceIte, keys_cons, List.mem_cons, hne, false_or, ih]
      split <;> simp

theorem keys_put_of_get? {t : Table α} {key : String} {known : α} (h : t.get? key = some known)
    (value : α) : (t.put key value).keys = t.keys := by
  rw [keys_put, if_pos (mem_keys_iff.mpr (has_iff.mpr ⟨known, h⟩))]

theorem keys_remove (t : Table α) (key : String) :
    (t.remove key).keys = t.keys.filter fun k => k != key := by
  simp only [remove, keys, List.filter_map]
  rfl

/-- With distinct keys every entry is the one that its key looks up. -/
theorem get?_of_mem {t : Table α} (h : t.keys.Nodup) {key : String} {value : α}
    (hm : (key, value) ∈ t) : t.get? key = some value := by
  induction t with
  | nil => cases hm
  | cons entry t ih =>
    obtain ⟨k, v⟩ := entry
    have hn := List.nodup_cons.mp h
    rw [get?_cons]
    rcases List.mem_cons.mp hm with he | hrest
    · cases he
      rw [if_pos rfl]
    · have hkey : key ∈ keys t := List.mem_map.mpr ⟨(key, value), hrest, rfl⟩
      have hne : k ≠ key := fun he => hn.1 (he ▸ hkey)
      rw [if_neg hne, ih hn.2 hrest]

/-- With distinct keys the values are what the keys look up, in the order of the keys. -/
theorem filterMap_values {t : Table α} (h : t.keys.Nodup) (g : α → Option β) :
    t.values.filterMap g = t.keys.filterMap fun key => (t.get? key).bind g := by
  induction t with
  | nil => rfl
  | cons entry t ih =>
    obtain ⟨k, v⟩ := entry
    rw [keys_cons] at h ⊢
    have hn := List.nodup_cons.mp h
    have hhead : (get? ((k, v) :: t) k).bind g = g v := by simp [get?_cons]
    have htail : ((keys t).filterMap fun key => (get? ((k, v) :: t) key).bind g) =
        (keys t).filterMap fun key => (get? t key).bind g := by
      apply List.filterMap_congr
      intro key hkey
      have hne : k ≠ key := fun he => hn.1 (he ▸ hkey)
      rw [get?_cons, if_neg hne]
    change (v :: values t).filterMap g = _
    rw [List.filterMap_cons, List.filterMap_cons, hhead, htail, ih hn.2]

def mapValues (g : α → β) (t : Table α) : Table β := t.map fun entry => (entry.1, g entry.2)

theorem mapValues_cons (g : α → β) (k : String) (v : α) (t : Table α) :
    mapValues g ((k, v) :: t) = (k, g v) :: t.mapValues g := rfl

theorem get?_mapValues (g : α → β) (t : Table α) (key : String) :
    (t.mapValues g).get? key = (t.get? key).map g := by
  induction t with
  | nil => rfl
  | cons entry t ih =>
    obtain ⟨k, v⟩ := entry
    rw [mapValues_cons, get?_cons, get?_cons, ih]
    split <;> rfl

theorem has_mapValues (g : α → β) (t : Table α) (key : String) :
    (t.mapValues g).has key = t.has key := by
  rw [has_eq_isSome, has_eq_isSome, get?_mapValues, Option.isSome_map]

/-- A view of the values commutes with writing, since the keys alone decide where a value goes. -/
theorem mapValues_put (g : α → β) (t : Table α) (key : String) (value : α) :
    (t.put key value).mapValues g = (t.mapValues g).put key (g value) := by
  induction t with
  | nil => rfl
  | cons entry t ih =>
    obtain ⟨k, v⟩ := entry
    rw [mapValues_cons, put_cons, put_cons]
    split
    · rfl
    · rw [mapValues_cons, ih]

theorem mapValues_remove (g : α → β) (t : Table α) (key : String) :
    (t.remove key).mapValues g = (t.mapValues g).remove key := by
  simp only [remove, mapValues, List.filter_map]
  rfl

theorem keys_mapValues (g : α → β) (t : Table α) : (t.mapValues g).keys = t.keys := by
  simp [mapValues, keys]

theorem values_mapValues (g : α → β) (t : Table α) : (t.mapValues g).values = t.values.map g := by
  simp [mapValues, values]

end LuaSymbols.Table
