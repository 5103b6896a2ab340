import Triage.Python.Parser.Grammar
import Triage.Python.Parser.Number

/-!
# String literals

A literal is read in segments: runs of plain text, escapes, doubled braces and replacement fields.
Raw strings keep a backslash together with the character it protects.
-/

namespace Triage.Python.Parser

/-- What stands at the front of the text inside a string. -/
inductive Segment where
  | content (length : Nat)
  | finish (length : Nat)
  | special
  | broken
deriving DecidableEq, Repr

/-- How many characters a raw string keeps together with the backslash before them. -/
def protectedLength (quote : Char) (cs : List Char) : Nat :=
  let quoted := match cs with
    | c :: _ => if c = quote ∨ c = '\\' then 1 else 0
    | [] => 0
  match cs.drop quoted with
  | '\r' :: '\n' :: _ => quoted + 2
  | '\r' :: _ => quoted + 1
  | '\n' :: _ => quoted + 1
  | _ => quoted

/-- The segment at the front, after `n` characters of it, `full` when these are text. A line end
breaks a string on one line, except as the first character of a run. -/
def segment (o : Opening) (n : Nat) (full : Bool) : List Char → Segment
  | [] => .broken
  | c :: cs =>
    if c = '\x00' then .broken
    else if o.format && (c == '\x7b' || c == '\x7d') then
      if full then .content n else .special
    else if c = '\\' then
      if o.raw then
        segment o (n + 1 + protectedLength o.quote cs) full (cs.drop (protectedLength o.quote cs))
      else if o.bytes && (cs.head? == some 'N' || cs.head? == some 'u' || cs.head? == some 'U') then
        segment o (n + 3) true (cs.drop 2)
      else if full then .content n
      else .special
    else if c = o.quote then
      if o.triple then
        match cs with
        | d :: e :: _ =>
          if d = c ∧ e = c then if full then .content n else .finish (n + 3)
          else if d = c then .content (n + 2)
          else .content (n + 1)
        | [d] => if d = c then .content (n + 2) else .content (n + 1)
        | [] => .content (n + 1)
      else if full then .content n
      else .finish (n + 1)
    else if c = '\n' ∧ full ∧ !o.triple then .broken
    else segment o (n + 1) true cs
termination_by cs => cs.length
decreasing_by all_goals simp only [List.length_cons, List.length_drop]; omega

/-- The length of the escape sequence at the front; a backslash that begins none stands for
itself. -/
def escapeLength : List Char → Nat
  | '\\' :: c :: cs =>
    let hex (n : Nat) := (cs.take n).length = n ∧ (cs.take n).all isHexDigit
    if c = 'u' ∧ hex 4 then 6
    else if c = 'U' ∧ hex 8 then 10
    else if c = 'x' ∧ hex 2 then 4
    else if c.isDigit then 2 + ((cs.take 2).takeWhile Char.isDigit).length
    else if c = '\r' ∧ cs.head? = some '\n' then 3
    else if c = 'N' ∧ cs.head? = some '\x7b' then
      let name := (cs.drop 1).takeWhile (· != '\x7d')
      if !name.isEmpty && (cs.drop (1 + name.length)).head? == some '\x7d' then name.length + 4
      else 1
    else if c = '\n' || "'\"abfrntv\\".toList.contains c then 2
    else 1
  | '\\' :: [] => 1
  | _ => 0

/-- Text that only blanks and comments precede may still hold a field or a comment. -/
def afterBreak (g : Grammar) : Reader Items := do
  let s ← get
  let t := s.advance (s.rest.takeWhile isSpace).length
  set t
  if t.startsWith "\x7b" then g (.interpolation .interpolation) .inner
  else
    match extraAt t.rest with
    | some (kind, n) => do
      set (t.keepExtra kind n)
      return []
    | none => fail

/-- What follows the opening delimiter, the closing one included. -/
def stringRest (g : Grammar) (o : Opening) : Reader Items :=
  repeatUntil (fun (items : Items) => do
    let s ← get
    if o.format && (s.startsWith "\x7b\x7b" || s.startsWith "\x7d\x7d") then
      return .inl (items ++ (← lexeme .escapeInterpolation 2))
    else
      match segment o 0 false s.rest with
      | .content n => return .inl (items ++ (← lexeme .stringContent n))
      | .finish n => do
        let last ← lexeme .stringEnd n
        modify fun t => { t with inFormat := false }
        return .inr (items ++ last)
      | .special =>
        let n := escapeLength s.rest
        if 0 < n then return .inl (items ++ (← lexeme .escapeSequence n))
        else return .inl (items ++ (← g (.interpolation .interpolation) .inner))
      | .broken =>
        let more ← either (afterBreak g) (fun _ => .error s.fault)
        return .inl (items ++ more)) []

/-- A string whose delimiter stands at the current place. -/
def string (g : Grammar) : Reader Items := do
  let s ← get
  match openingAt s.rest with
  | none => fail
  | some o =>
    let first ← lexeme .stringStart o.length
    modify fun t => { t with inFormat := o.format }
    return wrap .string (first ++ (← stringRest g o))

def strings (g : Grammar) (c : Context) : Reader Items := do
  let first ← string g
  repeatUntil (fun (items : Items) => do
    let _ ← settle { c.expect with string := true }
    if (openingAt (← get).rest).isSome then
      return .inl (items ++ (← string g))
    else
      let several := (items.filter (·.kind == .string)).length > 1
      return .inr (if several then wrap .concatenatedString items else items)) first

def formatSpecifier (g : Grammar) : Reader Items := do
  let colon ← symbol ":"
  let items ← repeatUntil (fun (items : Items) => do
    modify fun s => s.advance (s.rest.takeWhile (· == '\n')).length
    let s ← get
    let plain := s.rest.takeWhile fun c => c != '\n' && c != '\x7b' && c != '\x7d'
    if !plain.isEmpty then
      return .inl (items ++ (← lexeme (.token (String.ofList plain)) plain.length))
    else if s.startsWith "\x7b" then
      return .inl (items ++ (← g (.interpolation .formatExpression) .inner))
    else return .inr items) colon
  return wrap .formatSpecifier items

/-- A conversion such as `!r` at the front. -/
def conversionAt : List Char → Bool
  | '!' :: c :: _ => 'a' ≤ c && c ≤ 'z'
  | _ => false

/-- A replacement field whose value is read by `value`. -/
def interpolation (g : Grammar) (kind : Kind) (value : Reader Items) : Reader Items := do
  let opening ← symbol "\x7b"
  settleOperand
  let body ← value
  settleToken { close := true }
  let equals ← if (← get).startsWith "=" then symbol "=" else pure []
  settleToken { close := true }
  let conversion ←
    if conversionAt (← get).rest then lexeme .typeConversion 2 else pure []
  settleToken { close := true }
  let format ← if (← get).startsWith ":" then formatSpecifier g else pure []
  settleToken { close := true }
  let closing ← symbol "\x7d"
  return wrap kind (opening ++ fill .expression body ++ equals ++ fill .typeConversion conversion ++
    fill .formatSpecifier format ++ closing)

end Triage.Python.Parser
