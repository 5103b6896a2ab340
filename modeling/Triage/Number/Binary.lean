/-!
# Rounding to binary numbers

A positive rational number is rounded to the nearest number of the form `m * 2 ^ e` that a binary
format holds; a tie goes to the even `m`.
-/

namespace Triage.Number

abbrev twoTo (n : Nat) : Nat := Nat.pow 2 n

abbrev tenTo (n : Nat) : Nat := Nat.pow 10 n

/-- A binary format: the number of binary digits, and the exponents of the last one. -/
structure Format where
  digits : Nat
  least : Int
  greatest : Int
deriving Repr

/-- Numbers of 32 bits. -/
def single : Format := ⟨24, -149, 104⟩

def double : Format := ⟨53, -1074, 971⟩

/-- The number `mantissa * 2 ^ exponent`. -/
structure Binary where
  mantissa : Nat
  exponent : Int
deriving DecidableEq, Repr, Inhabited

def Binary.numerator (d : Binary) : Nat := d.mantissa * twoTo d.exponent.toNat

def Binary.denominator (d : Binary) : Nat := twoTo (-d.exponent).toNat

/-- The quotient, rounded to the nearest natural number; a tie goes to the even one. -/
def roundQuotient (num den : Nat) : Nat :=
  let q := num / den
  let r := num % den
  if 2 * r < den then q
  else if den < 2 * r then q + 1
  else q + q % 2

/-- `num / den` in units of `2 ^ e`, as a numerator and a denominator. -/
def scaled (num den : Nat) (e : Int) : Nat × Nat :=
  (num * twoTo (-e).toNat, den * twoTo e.toNat)

namespace Format

/-- The exponent of the last digit of `num / den`. -/
def exponentOf (f : Format) (num den : Nat) : Int :=
  let e := max f.least ((Nat.log2 num : Int) - Nat.log2 den - f.digits)
  let (n, d) := scaled num den e
  if n / d < twoTo f.digits then e else e + 1

/-- The nearest number of the format, or none when it is too large. -/
def round? (f : Format) (num den : Nat) : Option Binary :=
  if num = 0 then some ⟨0, f.least⟩
  else
    let e := f.exponentOf num den
    let (n, d) := scaled num den e
    let m := roundQuotient n d
    let r : Binary := if m < twoTo f.digits then ⟨m, e⟩ else ⟨m / 2, e + 1⟩
    if f.greatest < r.exponent then none else some r

/-- The nearest number of the format to `digits * 10 ^ exponent`. -/
def ofDecimal? (f : Format) (digits : Nat) (exponent : Int) : Option Binary :=
  if digits = 0 ∨ exponent + Nat.log2 digits < -1100 then some ⟨0, f.least⟩
  else if 400 < exponent then none
  else f.round? (digits * tenTo exponent.toNat) (tenTo (-exponent).toNat)

end Format

end Triage.Number
