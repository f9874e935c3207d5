namespace LuaSymbols

/-- A number in the 64-bit binary format. A finite one is `significand · 2 ^ exponent` up to its
sign. -/
inductive Binary64 where
  | finite (negative : Bool) (significand : Nat) (exponent : Int)
  | infinity (negative : Bool)
  | nan
deriving DecidableEq, Repr

/-- The quotient rounded to the nearest integer, a half to the even neighbour. -/
def roundDiv (num den : Nat) : Nat :=
  let q := num / den
  let twice := 2 * (num % den)
  if twice > den || (twice == den && q % 2 == 1) then q + 1 else q

namespace Binary64

def leastExponent : Int := -1074

def greatestExponent : Int := 971

def scaleTen (digits : Nat) (power : Int) : Nat × Nat :=
  if 0 ≤ power then (digits * Nat.pow 10 power.toNat, 1) else (digits, Nat.pow 10 (-power).toNat)

def significandAt (num den : Nat) (exponent : Int) : Nat :=
  if 0 ≤ exponent then roundDiv num (den * Nat.pow 2 exponent.toNat)
  else roundDiv (num * Nat.pow 2 (-exponent).toNat) den

def ofFraction (negative : Bool) (num den : Nat) : Binary64 :=
  let guess : Int := (Nat.log2 num : Int) - Nat.log2 den - 53
  -- The guess is at most one too small, and rounding up can carry into the next power of two.
  let fits := fun e : Int => significandAt num den e < Nat.pow 2 53
  let start := max guess leastExponent
  let exponent := if fits start then start else if fits (start + 1) then start + 1 else start + 2
  if exponent > greatestExponent then .infinity negative
  else .finite negative (significandAt num den exponent) exponent

def ofDecimal (negative : Bool) (digits : Nat) (power : Int) : Binary64 :=
  let length : Int := (Nat.toDigits 10 digits).length
  -- Far out of range, where the power of ten would only be large.
  if digits = 0 || length + power < -330 then .finite negative 0 leastExponent
  else if length + power > 310 then .infinity negative
  else
    let (num, den) := scaleTen digits power
    ofFraction negative num den

def fraction (significand : Nat) (exponent : Int) : Nat × Nat :=
  if 0 ≤ exponent then (significand * Nat.pow 2 exponent.toNat, 1)
  else (significand, Nat.pow 2 (-exponent).toNat)

/-- The integer part, toward zero. Only finite numbers have one. -/
def truncate? : Binary64 → Option Int
  | .finite negative significand exponent =>
    let (num, den) := fraction significand exponent
    let whole : Int := (num / den : Nat)
    some (if negative then -whole else whole)
  | _ => none

def isZero : Binary64 → Bool
  | .finite _ significand _ => significand == 0
  | _ => false

end Binary64

end LuaSymbols
