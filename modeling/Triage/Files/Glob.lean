import Triage.Files.Path

/-!
# Glob patterns

A question mark stands for one byte and a star for any number of them, but neither for a slash.
Two stars between slashes stand for any number of directories. Brackets list bytes, and braces
list alternatives.
-/

namespace Triage.Files.Glob

inductive Token where
  | byte (b : UInt8)
  | anyByte
  /-- Any bytes but slashes. -/
  | star
  /-- Any directories in front of a path. -/
  | leadingDirs
  /-- Anything below a directory. -/
  | below
  /-- A slash, or directories between two slashes. -/
  | innerDirs
  | oneOf (negated : Bool) (ranges : List (UInt8 × UInt8))
deriving DecidableEq, Repr

/-- Alternatives, each a row of tokens. -/
abbrev Pattern := List (List Token)

def bytesOf (c : Char) : List UInt8 := (String.singleton c).toUTF8.toList

/-- What was read of a pattern: the tokens outside braces and, within braces, the alternatives;
all of them last one first. -/
structure Draft where
  outer : List Token := []
  alternatives : Option (List (List Token)) := none
  /-- Rows in which alternatives have been filled in. -/
  rows : List (List Token) := [[]]

namespace Draft

def current (d : Draft) : List Token :=
  match d.alternatives with
  | some (ts :: _) => ts
  | _ => d.outer

def replaceCurrent (d : Draft) (ts : List Token) : Draft :=
  match d.alternatives with
  | some (_ :: rest) => { d with alternatives := some (ts :: rest) }
  | _ => { d with outer := ts }

def push (d : Draft) (t : Token) : Draft := d.replaceCurrent (t :: d.current)

/-- Add a character that stands for itself. -/
def pushText (d : Draft) (c : Char) : Draft :=
  (bytesOf c).foldl (fun d b => d.push (.byte b)) d

/-- Add all rows that go on with one of `ts`. -/
def fillIn (d : Draft) (ts : List (List Token)) : Draft :=
  { outer := [], alternatives := none,
    rows := d.rows.flatMap fun row => ts.map fun t => t ++ (d.outer ++ row) }

def finish (d : Draft) : Pattern := d.rows.map fun row => (d.outer ++ row).reverse

end Draft

/-- A character within brackets as a range of bytes. -/
def rangeOf (c d : Char) : List (UInt8 × UInt8) :=
  match bytesOf c, bytesOf d with
  | [b], [e] => [(b, e)]
  | bs, es => (bs ++ es).map fun b => (b, b)

def moreRanges? : Nat → List (UInt8 × UInt8) → List Char →
    Option (List (UInt8 × UInt8) × List Char)
  | 0, _, _ => none
  | fuel + 1, acc, cs =>
    match cs with
    | [] => none
    | ']' :: rest => some (acc, rest)
    | a :: '-' :: ']' :: rest => some (acc ++ rangeOf a a ++ rangeOf '-' '-', rest)
    | a :: '-' :: b :: rest => if b < a then none else moreRanges? fuel (acc ++ rangeOf a b) rest
    | a :: rest => moreRanges? fuel (acc ++ rangeOf a a) rest

/-- The bytes between brackets, after the opening one; a closing bracket in front is itself. -/
def brackets? (cs : List Char) : Option (Token × List Char) :=
  let (negated, cs) := match cs with
    | '!' :: rest => (true, rest)
    | '^' :: rest => (true, rest)
    | _ => (false, cs)
  let start : Option (List (UInt8 × UInt8) × List Char) := match cs with
    | ']' :: '-' :: ']' :: rest => some (rangeOf ']' ']' ++ rangeOf '-' '-', ']' :: rest)
    | ']' :: '-' :: b :: rest => if b < ']' then none else some (rangeOf ']' b, rest)
    | ']' :: rest => some (rangeOf ']' ']', rest)
    | _ => some ([], cs)
  match start with
  | none => none
  | some (acc, rest) =>
    (moreRanges? (rest.length + 1) acc rest).map fun (rs, rest) => (.oneOf negated rs, rest)

def star (d : Draft) (previous : Option Char) (cs : List Char) : Draft × Option Char × List Char :=
  match cs with
  | '*' :: rest =>
    let plain : Draft × Option Char × List Char := ((d.push .star).push .star, some '*', rest)
    if d.current.isEmpty && (d.rows == [[]] || d.alternatives.isSome) then
      match rest with
      | [] => (d.push .leadingDirs, some '*', [])
      | '/' :: more => (d.push .leadingDirs, some '/', more)
      | _ => plain
    else if previous ≠ some '/' then plain
    else
      let step (t : Token) : Draft :=
        match d.current with
        | .leadingDirs :: ts => d.replaceCurrent (.leadingDirs :: ts)
        | .below :: ts => d.replaceCurrent (.below :: ts)
        | _ :: ts => d.replaceCurrent (t :: ts)
        | [] => d.push t
      match rest with
      | [] => (step .below, some '*', [])
      | '/' :: more => (step .innerDirs, some '/', more)
      | c :: _ =>
        if d.alternatives.isSome && (c = ',' || c = '\x7d') then (step .below, some '*', rest)
        else plain
  | _ => (d.push .star, some '*', cs)

/-- Read a pattern from where `d` ends. -/
def draft? : Nat → Draft → Option Char → List Char → Option Draft
  | 0, _, _, _ => none
  | fuel + 1, d, previous, cs =>
    match cs with
    | [] => if d.alternatives.isSome then none else some d
    | '?' :: rest => draft? fuel (d.push .anyByte) (some '?') rest
    | '*' :: rest =>
      let (d, previous, rest) := star d previous rest
      draft? fuel d previous rest
    | '[' :: rest =>
      match brackets? rest with
      | some (t, rest) => draft? fuel (d.push t) (some ']') rest
      | none => none
    | '\x7b' :: rest =>
      if d.alternatives.isSome then none
      else draft? fuel { d with alternatives := some [[]] } (some '\x7b') rest
    | '\x7d' :: rest =>
      match d.alternatives with
      | some ts => draft? fuel (d.fillIn ts.reverse) (some '\x7d') rest
      | none => none
    | ',' :: rest =>
      match d.alternatives with
      | some ts => draft? fuel { d with alternatives := some ([] :: ts) } (some ',') rest
      | none => draft? fuel (d.push (.byte 44)) (some ',') rest
    | '\\' :: c :: rest => draft? fuel (d.pushText c) (some c) rest
    | '\\' :: [] => none
    | c :: rest => draft? fuel (d.pushText c) (some c) rest

/-- The pattern that a text stands for; none when brackets or braces are left open. -/
def parse? (s : String) : Option Pattern :=
  (draft? (s.length + 1) {} none s.toList).map Draft.finish

/-- The rests of a path after each of its slashes. -/
def afterSlashes : List UInt8 → List (List UInt8)
  | [] => []
  | b :: bs => if b = slash then bs :: afterSlashes bs else afterSlashes bs

/-- The rests of a path after any number of bytes that are no slashes. -/
def afterStar : List UInt8 → List (List UInt8)
  | [] => [[]]
  | b :: bs => if b = slash then [b :: bs] else (b :: bs) :: afterStar bs

/-- Whether a row of tokens matches a whole path. -/
def matchesRow : List Token → List UInt8 → Bool
  | [], path => path.isEmpty
  | .byte b :: ts, c :: path => b == c && matchesRow ts path
  | .anyByte :: ts, c :: path => c != slash && matchesRow ts path
  | .oneOf negated ranges :: ts, c :: path =>
    (ranges.any fun (low, high) => low ≤ c && c ≤ high) != negated && matchesRow ts path
  | .star :: ts, path => (afterStar path).any (matchesRow ts)
  | .leadingDirs :: ts, path => matchesRow ts path || (afterSlashes path).any (matchesRow ts)
  | .below :: ts, path =>
    path.head? == some slash &&
      (List.range path.length).any fun n => matchesRow ts (path.drop (n + 1))
  | .innerDirs :: ts, path =>
    path.head? == some slash && (afterSlashes path).any (matchesRow ts)
  | _ :: _, [] => false

def Pattern.matchesPath (p : Pattern) (path : List UInt8) : Bool :=
  p.any fun row => row == [.leadingDirs] || matchesRow row path

end Triage.Files.Glob
