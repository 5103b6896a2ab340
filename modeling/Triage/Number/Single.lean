import Triage.Number.Binary

/-!
# Numbers of 32 bits

A number is its bit pattern: a sign, eight bits of exponent and 23 bits of fraction. Its text has
the fewest digits that read back as the same number and, of those, the nearest.
-/

namespace Triage.Number

/-- A binary floating-point number of 32 bits. -/
structure Single where
  bits : UInt32
deriving DecidableEq, Repr, Inhabited

namespace Single

def isNegative (x : Single) : Bool := twoTo 31 ≤ x.bits.toNat

def exponentBits (x : Single) : Nat := x.bits.toNat / twoTo 23 % twoTo 8

def fractionBits (x : Single) : Nat := x.bits.toNat % twoTo 23

def isNaN (x : Single) : Bool := x.exponentBits == 255 && x.fractionBits != 0

/-- The magnitude of a finite number. -/
def magnitude? (x : Single) : Option Binary :=
  if x.exponentBits = 255 then none
  else if x.exponentBits = 0 then some ⟨x.fractionBits, -149⟩
  else some ⟨x.fractionBits + twoTo 23, (x.exponentBits : Int) - 150⟩

/-- The number with a sign and a magnitude; no magnitude stands for infinity. -/
def compose (negative : Bool) (magnitude : Option Binary) : Single :=
  let body : Nat := match magnitude with
    | none => 255 * twoTo 23
    | some d =>
      if d.mantissa < twoTo 23 then d.mantissa
      else (d.exponent + 150).toNat * twoTo 23 + (d.mantissa - twoTo 23)
  ⟨UInt32.ofNat (if negative then twoTo 31 + body else body)⟩

/-- The nearest number to `num / den`. -/
def ofRatio (negative : Bool) (num den : Nat) : Single :=
  compose negative (single.round? num den)

def ofBinary (negative : Bool) (d : Binary) : Single :=
  ofRatio negative d.numerator d.denominator

def nan (negative : Bool) : Single :=
  ⟨UInt32.ofNat ((if negative then twoTo 31 else 0) + twoTo 31 - twoTo 22)⟩

/-- The exponent of the first decimal digit of a natural number. -/
def decimalLog (n : Nat) : Nat := (Nat.toDigits 10 n).length - 1

/-- The exponent of the first decimal digit of `num / den`, which is positive. -/
def leadingExponent (num den : Nat) : Int :=
  if den ≤ num then (decimalLog (num / den) : Int)
  else
    let k := decimalLog (den / num)
    if den ≤ num * tenTo k then -(k : Int) else -(k : Int) - 1

/-- The two multiples of `10 ^ k` next to `num / den`, in units of `10 ^ k`. -/
def gridNeighbours (num den : Nat) (k : Int) : Nat × Nat :=
  let d := num * tenTo (-k).toNat / (den * tenTo k.toNat)
  (d, d + 1)

/-- Where the numbers that round to `d` begin and end, as numerators over four times the
denominator of `d`. -/
def roundingInterval (d : Binary) : Nat × Nat :=
  let unit := d.numerator / d.mantissa
  let below := if d.mantissa = twoTo 23 ∧ -149 < d.exponent then unit else 2 * unit
  (4 * d.numerator - below, 4 * d.numerator + 2 * unit)

/-- Whether `n * 10 ^ k` rounds to `d`; the ends of the interval do when the mantissa is even. -/
def readsBack (d : Binary) (n : Nat) (k : Int) : Bool :=
  let x := n * tenTo k.toNat * (4 * d.denominator)
  let scale := tenTo (-k).toNat
  let (low, high) := roundingInterval d
  if d.mantissa % 2 = 0 then low * scale ≤ x && x ≤ high * scale
  else low * scale < x && x < high * scale

/-- The decimal with `count` digits nearest to `d` of those that read back as `d`. -/
def decimalWith (d : Binary) (count : Nat) : Option (Nat × Int) :=
  let num := d.numerator
  let den := d.denominator
  let k := leadingExponent num den - count + 1
  let (a, b) := gridNeighbours num den k
  let x := 2 * num * tenTo (-k).toNat
  let middle := (a + b) * (den * tenTo k.toNat)
  let nearerFirst := x < middle || (x == middle && a % 2 == 0)
  let (p, q) := if nearerFirst then (a, b) else (b, a)
  if readsBack d p k then some (p, k)
  else if readsBack d q k then some (q, k)
  else none

/-- The shortest decimal that reads back as `d`, which is positive. Nine digits are enough. -/
def shortestDecimal (d : Binary) : Nat × Int :=
  ((List.range 9).findSome? fun n => decimalWith d (n + 1)).getD (0, 0)

/-- The number without its last zeros, and how many there were. -/
def stripZeros : Nat → Nat → Nat × Nat
  | 0, n => (n, 0)
  | fuel + 1, n =>
    if n % 10 = 0 ∧ n ≠ 0 then
      let (m, k) := stripZeros fuel (n / 10)
      (m, k + 1)
    else (n, 0)

/-- The text of a positive number: positional when the exponent of the first digit is from -6 to
12, and with an exponent otherwise. -/
def decimalText (d : Binary) : String :=
  let (n, k) := shortestDecimal d
  let (n, zeros) := stripZeros 10 n
  let k := k + zeros
  let digits := Nat.toDigits 10 n
  let first : Int := k + digits.length - 1
  let text (cs : List Char) := String.ofList cs
  if -6 ≤ first ∧ first ≤ 12 then
    if 0 ≤ k then text (digits ++ List.replicate k.toNat '0' ++ ['.', '0'])
    else if 0 ≤ first then
      text (digits.take (first.toNat + 1) ++ '.' :: digits.drop (first.toNat + 1))
    else text ('0' :: '.' :: List.replicate (-first - 1).toNat '0' ++ digits)
  else
    let mantissa := digits.take 1 ++ (if digits.length = 1 then [] else '.' :: digits.drop 1)
    let sign := if first < 0 then '-' else '+'
    text (mantissa ++ 'e' :: sign :: Nat.toDigits 10 first.natAbs)

def text? (x : Single) : Option String :=
  x.magnitude?.map fun d =>
    (if x.isNegative then "-" else "") ++
      (if d.mantissa = 0 then "0.0" else decimalText d)

end Single

end Triage.Number
