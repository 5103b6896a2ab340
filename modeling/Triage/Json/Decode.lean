import Triage.Json.Value
import Triage.Number.Single

/-!
# Taking values apart

A record is read from an object, whose unknown members do not matter and whose known ones stand
once at most, or from an array of its fields in order.
-/

namespace Triage.Json

open Number

/-- What a record's text holds for a field. -/
inductive Slot where
  | given (v : Value)
  /-- The object has no such member. -/
  | absent
  /-- The array ends before the field. -/
  | cut

def membersNamed (name : String) (ms : List (Text × Value)) : List Value :=
  (ms.filter (·.1 == some name)).map (·.2)

/-- The slot of a field in an object; none when the member is repeated. -/
def objectSlot? (ms : List (Text × Value)) (name : String) : Option Slot :=
  match membersNamed name ms with
  | [] => some .absent
  | [v] => some (.given v)
  | _ => none

/-- The slots of the fields in an object, whose names must all be texts. -/
def objectSlots? (names : List String) (ms : List (Text × Value)) : Option (List Slot) :=
  if ms.all (·.1.isSome) then names.mapM (objectSlot? ms) else none

/-- The slots of `n` fields in an array, which must not be longer. -/
def arraySlots? (n : Nat) (vs : List Value) : Option (List Slot) :=
  if vs.length ≤ n then some (vs.map .given ++ List.replicate (n - vs.length) .cut) else none

/-- The slots of a record's fields. -/
def Value.slots? (names : List String) : Value → Option (List Slot)
  | .object ms => objectSlots? names ms
  | .array vs => arraySlots? names.length vs
  | _ => none

namespace Slot

/-- A field that must be there. -/
def required? {α : Type} (read : Value → Option α) : Slot → Option α
  | given v => read v
  | _ => none

/-- A field that may be missing or null; an array must hold it all the same. -/
def optional? {α : Type} (read : Value → Option α) : Slot → Option (Option α)
  | given .null => some none
  | given v => (read v).map some
  | absent => some none
  | cut => none

/-- A field that has a value when it is missing. -/
def defaulted? {α : Type} (read : Value → Option α) (default : α) : Slot → Option α
  | given v => read v
  | _ => some default

end Slot

namespace Value

def string? : Value → Option String
  | .string t => t
  | _ => none

def list? {α : Type} (read : Value → Option α) : Value → Option (List α)
  | .array vs => vs.mapM read
  | _ => none

def pairs? {α : Type} (read : Value → Option α) : Value → Option (List (String × α))
  | .object ms => ms.mapM fun (name, v) => do return (← name, ← read v)
  | _ => none

/-- A null, or else a value. -/
def nullable? {α : Type} (read : Value → Option α) : Value → Option (Option α)
  | .null => some none
  | v => (read v).map some

end Value

/-- A number taken apart: its sign, its digits without the point, and its exponent. -/
structure Numeral where
  negative : Bool
  whole : List Char
  fraction : Option (List Char)
  exponent : Option Int

def natOfDigits (ds : List Char) : Nat := ds.foldl (fun n d => n * 10 + (d.toNat - 48)) 0

/-- The parts of a number as it is written. -/
def Numeral.ofLiteral (literal : String) : Numeral :=
  let cs := literal.toList
  let body := cs.dropWhile (· == '-')
  let whole := body.takeWhile Char.isDigit
  let rest := body.dropWhile Char.isDigit
  let (fraction, rest) := match rest with
    | '.' :: r => (some (r.takeWhile Char.isDigit), r.dropWhile Char.isDigit)
    | _ => (none, rest)
  let exponent : Option Int := match rest with
    | _ :: '-' :: ds => some (-(natOfDigits ds : Int))
    | _ :: '+' :: ds => some (natOfDigits ds)
    | _ :: ds => some (natOfDigits ds)
    | [] => none
  ⟨cs.head? == some '-', whole, fraction, exponent⟩

def maxWord : Nat := UInt64.size - 1

def maxHalfWord : Nat := UInt32.size - 1

/-- A number without sign, fraction and exponent. -/
def Numeral.integer? (n : Numeral) : Option Nat :=
  if n.negative || n.fraction.isSome || n.exponent.isSome then none
  else some (natOfDigits n.whole)

def Value.natUpTo? (limit : Nat) : Value → Option Nat
  | .number literal => (Numeral.ofLiteral literal).integer?.filter (· ≤ limit)
  | _ => none

/-- The digits that count: those before a digit with which the number would outgrow 64 bits, and
the number of digits left over. -/
def significand (n : Nat) : List Char → Nat × Nat
  | [] => (n, 0)
  | d :: ds =>
    let m := n * 10 + (d.toNat - 48)
    if m ≤ maxWord then significand m ds else (n, ds.length + 1)

def productOf? (a b : Binary) : Option Binary :=
  double.round? (a.numerator * b.numerator) (a.denominator * b.denominator)

def quotientOf? (a b : Binary) : Option Binary :=
  double.round? (a.numerator * b.denominator) (a.denominator * b.numerator)

def powerOfTen (k : Nat) : Binary := (double.ofDecimal? 1 k).getD ⟨0, 0⟩

/-- `f * 10 ^ e` in steps of at most 308 decimal places, each rounded to 64 bits; none when it is
too large. -/
def scaleByTen : Nat → Binary → Int → Option Binary
  | 0, f, _ => some f
  | fuel + 1, f, e =>
    if e.natAbs ≤ 308 then
      if 0 ≤ e then productOf? f (powerOfTen e.natAbs) else quotientOf? f (powerOfTen e.natAbs)
    else if f.mantissa = 0 then some f
    else if 0 ≤ e then none
    else do scaleByTen fuel (← quotientOf? f (powerOfTen 308)) (e + 308)

/-- The greatest exponent that is taken as it is written. -/
def maxExponent : Nat := twoTo 31 - 1

/-- The magnitude of a number that is no integer of 64 bits, to the precision that a reader with
64 bits of digits gives; none when it is too large. -/
def Numeral.magnitude? (n : Numeral) : Option Binary :=
  let fraction := n.fraction.getD []
  let (whole, left) := significand 0 n.whole
  let (digits, dropped) := significand whole fraction
  let shift : Int := (left : Int) - ((fraction.length : Int) - dropped)
  let e := n.exponent.getD 0
  if maxExponent < e.natAbs then
    if digits = 0 ∨ e < 0 then some ⟨0, -1074⟩ else none
  else
    match double.round? digits 1 with
    | some f => scaleByTen 8 f (max (-2147483648) (min 2147483647 (shift + e)))
    | none => none

/-- Whether a number is within the range of 64-bit numbers. -/
def Numeral.inRange (n : Numeral) : Bool :=
  match n.integer? with
  | some m => m ≤ maxWord || n.magnitude?.isSome
  | none => n.magnitude?.isSome

/-- The number as one of 32 bits: integers of 64 bits are rounded once, others after rounding to
64 bits. -/
def Numeral.single? (n : Numeral) : Option Single :=
  let integral := n.fraction.isNone && n.exponent.isNone
  let m := natOfDigits n.whole
  if integral && (if n.negative then 0 < m && m ≤ twoTo 63 else m ≤ maxWord) then
    some (Single.ofRatio n.negative m 1)
  else n.magnitude?.map (Single.ofBinary n.negative)

def Value.single? : Value → Option Single
  | .number literal => (Numeral.ofLiteral literal).single?
  | _ => none

/-- A 32-bit number as a value; infinities and NaN are null. -/
def Value.ofSingle (x : Single) : Value :=
  match x.text? with
  | some t => .number t
  | none => .null

mutual
/-- Whether a value can be held until its type is known: nested in at most `depth` brackets, its
strings texts and its numbers in range. -/
def Value.isHoldable (depth : Nat) : Value → Bool
  | .string t => t.isSome
  | .number literal => (Numeral.ofLiteral literal).inRange
  | .array vs => 0 < depth && areHoldable (depth - 1) vs
  | .object ms => 0 < depth && areHoldableMembers (depth - 1) ms
  | _ => true
def areHoldable (depth : Nat) : List Value → Bool
  | [] => true
  | v :: vs => v.isHoldable depth && areHoldable depth vs
def areHoldableMembers (depth : Nat) : List (Text × Value) → Bool
  | [] => true
  | (name, v) :: ms => name.isSome && v.isHoldable depth && areHoldableMembers depth ms
end

end Triage.Json
