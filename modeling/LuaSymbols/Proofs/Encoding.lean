import LuaSymbols.Text.Utf8
import Mathlib.Tactic.IntervalCases

namespace LuaSymbols.Utf8

theorem encode_append (front rest : List Char) : encode (front ++ rest) = encode front ++ encode rest :=
  List.flatMap_append

theorem encode_cons (c : Char) (cs : List Char) :
    encode (c :: cs) = String.utf8EncodeChar c ++ encode cs :=
  List.flatMap_cons

theorem encode_concat (front : List Char) (c : Char) :
    encode (front ++ [c]) = encode front ++ String.utf8EncodeChar c := by
  simp [encode]

theorem ofLead?_two {n : Nat} (h : 2 ≤ n) (h' : n < 32) :
    Pending.ofLead? (UInt8.ofNat (n + 192)) = some ⟨1, 0x80, 0xBF, n⟩ := by
  interval_cases n <;> rfl

/-- The bounds on the byte after a lead of three are what keeps overlong forms and
surrogates out. -/
theorem ofLead?_three {n : Nat} (h : n < 16) :
    Pending.ofLead? (UInt8.ofNat (n + 224)) =
      some ⟨2, if n = 0 then 0xA0 else 0x80, if n = 13 then 0x9F else 0xBF, n⟩ := by
  interval_cases n <;> rfl

theorem ofLead?_four {n : Nat} (h : n < 5) :
    Pending.ofLead? (UInt8.ofNat (n + 240)) =
      some ⟨3, if n = 0 then 0x90 else 0x80, if n = 4 then 0x8F else 0xBF, n⟩ := by
  interval_cases n <;> rfl

namespace Decoder

theorem read_plain (done : Array Char) (sound : Bool) {b : UInt8} (h : b.toNat < 128) :
    read ⟨done, none, sound⟩ b = ⟨done.push (Char.ofNat b.toNat), none, sound⟩ := by
  have hlt : b < 0x80 := UInt8.lt_iff_toNat_lt.mpr h
  simp [read, lead, hlt]

theorem read_lead (done : Array Char) (sound : Bool) {b : UInt8} {p : Pending} (hb : 128 ≤ b.toNat)
    (h : Pending.ofLead? b = some p) : read ⟨done, none, sound⟩ b = ⟨done, some p, sound⟩ := by
  have hlt : ¬ b < 0x80 := fun hlt => Nat.not_lt.mpr hb (UInt8.lt_iff_toNat_lt.mp hlt)
  simp [read, lead, hlt, h]

variable {low high b : UInt8} {value m : Nat}

/-- The byte that completes a character puts it out and leaves nothing pending. -/
theorem read_last (done : Array Char) (sound : Bool) (hb : b.toNat = m + 128)
    (hlow : low.toNat ≤ m + 128) (hhigh : m + 128 ≤ high.toNat) :
    read ⟨done, some ⟨1, low, high, value⟩, sound⟩ b =
      ⟨done.push (Char.ofNat (value * 64 + m)), none, sound⟩ := by
  have hbounds : low ≤ b ∧ b ≤ high := by
    rw [UInt8.le_iff_toNat_le, UInt8.le_iff_toNat_le, hb]
    exact ⟨hlow, hhigh⟩
  simp [read, hbounds, hb]

/-- A byte in the middle of a character only adds its six bits. From here on the bounds are the
common ones. -/
theorem read_more (done : Array Char) (sound : Bool) (missing : Nat) (hb : b.toNat = m + 128)
    (hlow : low.toNat ≤ m + 128) (hhigh : m + 128 ≤ high.toNat) :
    read ⟨done, some ⟨missing + 2, low, high, value⟩, sound⟩ b =
      ⟨done, some ⟨missing + 1, 0x80, 0xBF, value * 64 + m⟩, sound⟩ := by
  have hbounds : low ≤ b ∧ b ≤ high := by
    rw [UInt8.le_iff_toNat_le, UInt8.le_iff_toNat_le, hb]
    exact ⟨hlow, hhigh⟩
  simp [read, hbounds, hb]

/-- The bytes of a character are read as that character. -/
theorem foldl_read_char (done : Array Char) (sound : Bool) (c : Char) :
    (String.utf8EncodeChar c).foldl read ⟨done, none, sound⟩ = ⟨done.push c, none, sound⟩ := by
  have hbyte : ∀ n, n < 256 → (UInt8.ofNat n).toNat = n := fun n h => UInt8.toNat_ofNat_of_lt' h
  have hvalid : c.val.toNat < 0xD800 ∨ 0xDFFF < c.val.toNat ∧ c.val.toNat < 0x110000 := c.valid
  have hchar : ∀ n, n = c.val.toNat → Char.ofNat n = c := by
    rintro n rfl
    exact Char.ofNat_toNat c
  unfold String.utf8EncodeChar
  generalize c.val.toNat = v at *
  dsimp only
  split
  · simp only [List.foldl_cons, List.foldl_nil]
    rw [read_plain _ _ (by rw [hbyte] <;> omega), hbyte _ (by omega), hchar v rfl]
  split
  · simp only [List.foldl_cons, List.foldl_nil]
    rw [read_lead _ _ (by rw [hbyte] <;> omega) (ofLead?_two (by omega) (by omega)),
      read_last _ _ (hbyte _ (by omega)) (by simp) (by simp; omega), hchar _ (by omega)]
  split
  · -- The bounds of the second byte keep out overlong forms and surrogates.
    have hlow : (if v / 4096 % 16 = 0 then 0xA0 else 0x80 : UInt8).toNat ≤ v / 64 % 64 + 128 := by
      split <;> simp
      omega
    have hhigh : v / 64 % 64 + 128 ≤ (if v / 4096 % 16 = 13 then 0x9F else 0xBF : UInt8).toNat := by
      split <;> simp <;> omega
    simp only [List.foldl_cons, List.foldl_nil]
    rw [read_lead _ _ (by rw [hbyte] <;> omega) (ofLead?_three (by omega)),
      read_more _ _ 0 (hbyte _ (by omega)) hlow hhigh,
      read_last _ _ (hbyte _ (by omega)) (by simp) (by simp; omega), hchar _ (by omega)]
  · have hlow : (if v / 262144 % 8 = 0 then 0x90 else 0x80 : UInt8).toNat ≤ v / 4096 % 64 + 128 := by
      split <;> simp
      omega
    have hhigh : v / 4096 % 64 + 128 ≤ (if v / 262144 % 8 = 4 then 0x8F else 0xBF : UInt8).toNat := by
      split <;> simp <;> omega
    simp only [List.foldl_cons, List.foldl_nil]
    rw [read_lead _ _ (by rw [hbyte] <;> omega) (ofLead?_four (by omega)),
      read_more _ _ 1 (hbyte _ (by omega)) hlow hhigh,
      read_more _ _ 0 (hbyte _ (by omega)) (by simp) (by simp; omega),
      read_last _ _ (hbyte _ (by omega)) (by simp) (by simp; omega), hchar _ (by omega)]

/-- By induction over the characters: each of them is read whole and leaves the decoder settled. -/
theorem foldl_read_encode (cs : List Char) (done : Array Char) (sound : Bool) :
    (encode cs).foldl read ⟨done, none, sound⟩ = ⟨done ++ cs.toArray, none, sound⟩ := by
  induction cs generalizing done with
  | nil => simp [encode]
  | cons c cs ih =>
    rw [encode_cons, List.foldl_append, foldl_read_char, ih]
    simp

end Decoder

theorem decode_encode (cs : List Char) : decode (encode cs) = cs := by
  have hrun : run (encode cs) = ⟨cs.toArray, none, true⟩ := by
    rw [run, Decoder.empty, Decoder.foldl_read_encode]
    simp [Decoder.finish]
  rw [decode, hrun]

namespace Decoder

/-- The number of characters that the bytes read so far come to, if none follow. -/
def size (d : Decoder) : Nat := d.finish.done.size

variable {d : Decoder}

theorem size_of_settled (h : d.pending = none) : d.size = d.done.size := by
  simp [size, finish, h]

theorem size_of_pending {p : Pending} (h : d.pending = some p) : d.size = d.done.size + 1 := by
  simp [size, finish, h, reject]

theorem size_lead (h : d.pending = none) (b : UInt8) : (d.lead b).size = d.done.size + 1 := by
  unfold lead
  split
  · simp [size, finish, h]
  · split <;> simp [size, finish, reject]

/-- Between two characters every byte begins another one. -/
theorem size_lt_read (h : d.pending = none) (b : UInt8) : d.size < (d.read b).size := by
  have hread : d.read b = d.lead b := by simp [read, h]
  rw [hread, size_lead h, size_of_settled h]
  exact Nat.lt_succ_self _

/-- No byte takes characters back, also where it breaks off a character and starts another. -/
theorem size_le_read (d : Decoder) (b : UInt8) : d.size ≤ (d.read b).size := by
  cases h : d.pending with
  | none => exact Nat.le_of_lt (size_lt_read h b)
  | some p =>
    rw [size_of_pending h]
    simp only [read, h]
    split
    · split
      · simp [size, finish]
      · simp [size, finish, reject]
    · rw [size_lead rfl]
      simp [reject]

/-- Bytes that follow take no character back. -/
theorem size_le_foldl (bytes : List UInt8) (d : Decoder) : d.size ≤ (bytes.foldl read d).size := by
  induction bytes generalizing d with
  | nil => exact Nat.le_refl _
  | cons b bytes ih => exact Nat.le_trans (size_le_read d b) (ih (d.read b))

end Decoder

theorem length_decode (bytes : List UInt8) :
    (decode bytes).length = (bytes.foldl Decoder.read .empty).size := by
  simp [decode, run, Decoder.size]

/-- The first bytes of a character count as one character, however many of them there are. -/
theorem length_decode_cut (front : List Char) {c : Char} {cut : List UInt8}
    (hcut : cut <+: String.utf8EncodeChar c) (hne : cut ≠ []) :
    (decode (encode front ++ cut)).length = front.length + 1 := by
  obtain ⟨rest, hrest⟩ := hcut
  obtain ⟨b, more, rfl⟩ := List.exists_cons_of_ne_nil hne
  -- The first byte begins a character, and all of them together, with the rest, make one only.
  have hfront : (encode front).foldl Decoder.read .empty = ⟨front.toArray, none, true⟩ := by
    rw [Decoder.empty, Decoder.foldl_read_encode]
    simp
  have hlower : front.length + 1 ≤ (decode (encode front ++ b :: more)).length := by
    rw [length_decode, List.foldl_append, hfront, List.foldl_cons]
    have hbegun : front.length < (Decoder.read ⟨front.toArray, none, true⟩ b).size := by
      simpa [Decoder.size, Decoder.finish] using
        Decoder.size_lt_read (d := ⟨front.toArray, none, true⟩) rfl b
    exact Nat.le_trans hbegun (Decoder.size_le_foldl more _)
  have hupper : (decode (encode front ++ b :: more)).length ≤ front.length + 1 := by
    have hwhole := Decoder.size_le_foldl rest ((encode front ++ b :: more).foldl Decoder.read .empty)
    rw [← List.foldl_append, ← length_decode, ← length_decode, List.append_assoc, hrest,
      ← encode_concat, decode_encode, List.length_append, List.length_singleton] at hwhole
    exact hwhole
  exact Nat.le_antisymm hupper hlower

/-- Beyond ASCII every byte of a character has its highest bit set. -/
theorem high_of_mem {c : Char} (hc : 0x7F < c.val.toNat) {b : UInt8}
    (hb : b ∈ String.utf8EncodeChar c) : 0x80 ≤ b.toNat := by
  have hbyte (n : Nat) (hlow : 0x80 ≤ n) (hhigh : n < 256) : 0x80 ≤ (UInt8.ofNat n).toNat := by
    rwa [UInt8.toNat_ofNat_of_lt' hhigh]
  unfold String.utf8EncodeChar at hb
  rw [if_neg (Nat.not_le.mpr hc)] at hb
  split at hb
  · simp only [List.mem_cons, List.not_mem_nil, or_false] at hb
    rcases hb with rfl | rfl <;> exact hbyte _ (by omega) (by omega)
  split at hb
  · simp only [List.mem_cons, List.not_mem_nil, or_false] at hb
    rcases hb with rfl | rfl | rfl <;> exact hbyte _ (by omega) (by omega)
  · simp only [List.mem_cons, List.not_mem_nil, or_false] at hb
    rcases hb with rfl | rfl | rfl | rfl <;> exact hbyte _ (by omega) (by omega)

/-- The byte of a line feed stands in the encoding of no other character. -/
theorem eq_lineFeed_of_mem {c : Char} (h : 0x0A ∈ String.utf8EncodeChar c) : c = '\n' := by
  by_cases hc : 0x7F < c.val.toNat
  · exact absurd (high_of_mem hc h) (by decide)
  · have hsingle : String.utf8EncodeChar c = [UInt8.ofNat c.val.toNat] := if_pos (Nat.not_lt.mp hc)
    rw [hsingle, List.mem_singleton] at h
    have hsmall : c.val.toNat < 256 := by omega
    have hten := congrArg UInt8.toNat h
    rw [UInt8.toNat_ofNat_of_lt' hsmall] at hten
    exact Char.toNat_inj.mp hten.symm

/-- Rows may be counted in bytes: line feeds are encoded as themselves and occur in nothing else. -/
theorem count_lineFeed (cs : List Char) : (encode cs).count 0x0A = cs.count '\n' := by
  induction cs with
  | nil => rfl
  | cons c cs ih =>
    rw [encode_cons, List.count_append, ih]
    by_cases hc : c = '\n'
    · subst hc
      rw [List.count_cons_self, Nat.add_comm]
      rfl
    · rw [List.count_eq_zero.mpr (mt eq_lineFeed_of_mem hc), List.count_cons_of_ne hc, Nat.zero_add]

end LuaSymbols.Utf8
