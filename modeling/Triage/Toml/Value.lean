import Triage.Number.Double

/-!
# TOML values

Tables remember how they came to be, because that decides who may still add to them.
-/

namespace Triage.Toml

open Number

/-- How a table came to be. -/
inductive Origin where
  /-- It was written between braces and is complete. -/
  | braces
  /-- A dotted key leads through it. -/
  | dotted
  /-- Only the header of a table below it was seen. -/
  | implied
  /-- It has a header of its own. -/
  | header
deriving DecidableEq, Repr, Inhabited

inductive Value where
  | string (s : String)
  | integer (n : Int)
  | float (x : Double)
  | boolean (b : Bool)
  /-- A date, a time of day, or both. -/
  | moment
  | array (items : List Value)
  | table (origin : Origin) (members : List (String × Value))
  /-- Tables that were begun by headers of one name. -/
  | tables (elements : List (List (String × Value)))
deriving Repr, Inhabited

/-- What a table holds. -/
abbrev Members := List (String × Value)

namespace Members

def set (name : String) (v : Value) : Members → Members
  | [] => [(name, v)]
  | m :: ms => if m.1 = name then (name, v) :: ms else m :: set name v ms

def add? (name : String) (v : Value) (ms : Members) : Option Members :=
  if (ms.lookup name).isSome then none else some (ms.set name v)

/-- Change the table that a path leads to, which begins in a table of the given origin. Missing
tables are made on the way; of tables under one header the last one counts. A dotted key leads
neither through braces nor through a table with a header, a header only not through braces. -/
def edit (dotted : Bool) (change : Origin → Members → Option Members) :
    List String → Origin → Members → Option Members
  | [], origin, ms => change origin ms
  | name :: path, _, ms =>
    match ms.lookup name with
    | none => do
      let origin := if dotted then .dotted else .implied
      return ms.set name (.table origin (← edit dotted change path origin []))
    | some (.table origin inner) =>
      if origin = .braces ∨ (dotted ∧ origin = .header) then none
      else do return ms.set name (.table origin (← edit dotted change path origin inner))
    | some (.tables elements) =>
      match elements.getLast? with
      | some inner => do
        let inner ← edit dotted change path .header inner
        return ms.set name (.tables (elements.dropLast ++ [inner]))
      | none => none
    | some _ => none

/-- Add what a dotted key stands for to a table. -/
def addDotted? (path : List String) (name : String) (v : Value) (origin : Origin) (ms : Members) :
    Option Members :=
  edit true (fun origin ms =>
    if decide (origin = .dotted) == path.isEmpty then none else ms.add? name v) path origin ms

def openTable? (path : List String) (name : String) (root : Members) : Option Members :=
  edit false (fun _ ms =>
    match ms.lookup name with
    | none => some (ms.set name (.table .header []))
    | some (.table .implied inner) => some (ms.set name (.table .header inner))
    | some _ => none) path .header root

/-- Begin one more table under a header of several. -/
def openElement? (path : List String) (name : String) (root : Members) : Option Members :=
  edit false (fun _ ms =>
    match ms.lookup name with
    | none => some (ms.set name (.tables [[]]))
    | some (.tables elements) => some (ms.set name (.tables (elements ++ [[]])))
    | some _ => none) path .header root

/-- Add a member to the table under a header. -/
def addUnder? (header path : List String) (name : String) (v : Value) (root : Members) :
    Option Members :=
  edit false (addDotted? path name v) header .header root

end Members

end Triage.Toml
