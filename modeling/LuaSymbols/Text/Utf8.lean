namespace LuaSymbols.Utf8

def encode (cs : List Char) : List UInt8 := cs.flatMap String.utf8EncodeChar

def replacement : Char := '\uFFFD'

structure Pending where
  missing : Nat
  low : UInt8
  high : UInt8
  value : Nat

/-- The sequence that a lead byte opens. The bounds of the second byte keep out overlong forms,
surrogates and numbers beyond the last code point. -/
def Pending.ofLead? (b : UInt8) : Option Pending :=
  if 0xC2 ≤ b && b ≤ 0xDF then some ⟨1, 0x80, 0xBF, b.toNat - 0xC0⟩
  else if b == 0xE0 then some ⟨2, 0xA0, 0xBF, 0⟩
  else if b == 0xED then some ⟨2, 0x80, 0x9F, 0xD⟩
  else if 0xE1 ≤ b && b ≤ 0xEF then some ⟨2, 0x80, 0xBF, b.toNat - 0xE0⟩
  else if b == 0xF0 then some ⟨3, 0x90, 0xBF, 0⟩
  else if b == 0xF4 then some ⟨3, 0x80, 0x8F, 4⟩
  else if 0xF1 ≤ b && b ≤ 0xF3 then some ⟨3, 0x80, 0xBF, b.toNat - 0xF0⟩
  else none

/-- The characters read so far, the sequence being read, and whether all bytes were well formed. -/
structure Decoder where
  done : Array Char
  pending : Option Pending
  sound : Bool

namespace Decoder

def empty : Decoder := ⟨#[], none, true⟩

def reject (d : Decoder) : Decoder := ⟨d.done.push replacement, none, false⟩

def lead (d : Decoder) (b : UInt8) : Decoder :=
  if b < 0x80 then { d with done := d.done.push (Char.ofNat b.toNat) }
  else
    match Pending.ofLead? b with
    | some p => { d with pending := some p }
    | none => d.reject

/-- Reads one byte. A byte that cannot continue a sequence closes it and begins the next. -/
def read (d : Decoder) (b : UInt8) : Decoder :=
  match d.pending with
  | none => d.lead b
  | some p =>
    if p.low ≤ b && b ≤ p.high then
      let value := p.value * 64 + (b.toNat - 0x80)
      if p.missing ≤ 1 then { d with done := d.done.push (Char.ofNat value), pending := none }
      else { d with pending := some ⟨p.missing - 1, 0x80, 0xBF, value⟩ }
    else d.reject.lead b

def finish (d : Decoder) : Decoder :=
  match d.pending with
  | none => d
  | some _ => d.reject

end Decoder

def run (bytes : List UInt8) : Decoder := (bytes.foldl Decoder.read .empty).finish

def decode (bytes : List UInt8) : List Char := (run bytes).done.toList

def decode? (bytes : List UInt8) : Option (List Char) :=
  let d := run bytes
  if d.sound then some d.done.toList else none

end LuaSymbols.Utf8
