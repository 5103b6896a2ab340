import Triage.Number.Single

/-!
# Numbers of 64 bits

Only what is needed to carry a number from a text to one of 32 bits, with both roundings.
-/

namespace Triage.Number

/-- A binary floating-point number of 64 bits. -/
inductive Double where
  | finite (negative : Bool) (magnitude : Binary)
  | infinite (negative : Bool)
  | nan (negative : Bool)
deriving DecidableEq, Repr, Inhabited

def Double.toSingle : Double → Single
  | finite negative d => .ofBinary negative d
  | infinite negative => .compose negative none
  | nan negative => .nan negative

/-- The nearest number to `digits * 10 ^ exponent`, unless it is too large. -/
def Double.ofDecimal? (negative : Bool) (digits : Nat) (exponent : Int) : Option Double :=
  (double.ofDecimal? digits exponent).map (.finite negative)

end Triage.Number
