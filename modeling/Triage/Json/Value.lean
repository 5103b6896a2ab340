/-!
# JSON values

A value keeps what its text said: numbers as they are written, and the members of an object in
order, repeated names included.
-/

namespace Triage.Json

/-- The text of a string; none when the string has an unpaired surrogate, which no text holds. -/
abbrev Text := Option String

inductive Value where
  | null
  | bool (b : Bool)
  /-- A number as it is written. -/
  | number (literal : String)
  | string (text : Text)
  | array (items : List Value)
  | object (members : List (Text × Value))
deriving Repr, Inhabited

namespace Value

def text (s : String) : Value := .string (some s)

def nat (n : Nat) : Value := .number (String.ofList (Nat.toDigits 10 n))

def ofMembers (ms : List (String × Value)) : Value :=
  .object (ms.map fun m => (some m.1, m.2))

end Value

end Triage.Json
