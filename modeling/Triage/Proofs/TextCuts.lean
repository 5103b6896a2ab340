import Mathlib
import Triage.Proofs.LiteralSpelling
import Triage.Python.Extract

/-!
# Where texts are cut

Texts are cut at byte numbers, and a byte number may lie outside a text or inside a character. A
range then gives nothing, and a single cut aborts. Extraction takes the texts of nodes by ranges,
and makes cuts that could abort only when it reads a string literal. There the cuts are at a quote
and after it, so that none of them aborts, whatever the text.
-/

namespace Triage.Python

/-- Why a text cannot be cut at a byte number. -/
inductive BadCut where
  | outside | insideCharacter
deriving DecidableEq, Repr

/-- The parts of a text before and after a byte number. -/
def cutAt : Nat → List Char → Except BadCut (List Char × List Char)
  | 0, cs => .ok ([], cs)
  | _ + 1, [] => .error .outside
  | n + 1, c :: cs =>
    if c.utf8Size ≤ n + 1 then
      (cutAt (n + 1 - c.utf8Size) cs).map fun parts => (c :: parts.1, parts.2)
    else .error .insideCharacter

/-- The characters of a byte range, or nothing when the range runs backwards, is out of bounds or
cuts a character. -/
def between? (start stop : Nat) (cs : List Char) : Option (List Char) := do
  let (front, _) ← (cutAt stop cs).toOption
  let (_, piece) ← (cutAt start front).toOption
  return piece

theorem cutAt_append (front rest : List Char) :
    cutAt (byteLength front) (front ++ rest) = .ok (front, rest) := by
  induction front with
  | nil => cases rest <;> rfl
  | cons c front ih =>
    have hpos : 0 < c.utf8Size := c.utf8Size_pos
    obtain ⟨n, hn⟩ : ∃ n, byteLength (c :: front) = n + 1 :=
      Nat.exists_eq_add_one_of_ne_zero (by rw [byteLength_cons]; omega)
    have hrest : n + 1 - c.utf8Size = byteLength front := by
      rw [← hn, byteLength_cons]
      omega
    have hle : c.utf8Size ≤ n + 1 := by
      rw [← hn, byteLength_cons]
      omega
    rw [hn, List.cons_append, cutAt, if_pos hle, hrest, ih]
    rfl

/-- A text is cut where the characters before the cut end. -/
theorem cutAt_eq_ok {n : Nat} {cs front rest : List Char} :
    cutAt n cs = .ok (front, rest) ↔ cs = front ++ rest ∧ byteLength front = n := by
  constructor
  · intro h
    fun_induction cutAt n cs generalizing front with
    | case1 cs =>
      cases h
      exact ⟨rfl, rfl⟩
    | case2 => cases h
    | case3 n c cs hle ih =>
      cases hcut : cutAt (n + 1 - c.utf8Size) cs with
      | error e =>
        rw [hcut] at h
        cases h
      | ok parts =>
        rw [hcut] at h
        cases h
        obtain ⟨happend, hlength⟩ := ih hcut
        refine ⟨by rw [happend, List.cons_append], ?_⟩
        rw [byteLength_cons, hlength]
        omega
    | case4 => cases h
  · rintro ⟨rfl, rfl⟩
    exact cutAt_append front rest

/-- A range gives the characters that begin and end where it does. -/
theorem between?_eq_some {start stop : Nat} {cs piece : List Char} :
    between? start stop cs = some piece ↔
      ∃ before after, cs = before ++ (piece ++ after) ∧ byteLength before = start ∧
        start + byteLength piece = stop := by
  constructor
  · intro h
    cases hstop : cutAt stop cs with
    | error e => simp [between?, hstop, Except.toOption] at h
    | ok parts =>
      obtain ⟨front, after⟩ := parts
      cases hstart : cutAt start front with
      | error e => simp [between?, hstop, hstart, Except.toOption] at h
      | ok parts =>
        obtain ⟨before, middle⟩ := parts
        obtain rfl : middle = piece := by simpa [between?, hstop, hstart, Except.toOption] using h
        obtain ⟨rfl, hlength⟩ := cutAt_eq_ok.mp hstart
        obtain ⟨rfl, htotal⟩ := cutAt_eq_ok.mp hstop
        rw [byteLength_append, hlength] at htotal
        exact ⟨before, after, List.append_assoc _ _ _, hlength, htotal⟩
  · rintro ⟨before, after, rfl, rfl, rfl⟩
    have hstop := cutAt_append (before ++ piece) after
    rw [byteLength_append, List.append_assoc] at hstop
    simp [between?, hstop, cutAt_append before piece, Except.toOption]

/-! ### Texts of nodes -/

theorem utf8ByteSize_ofList (cs : List Char) :
    (String.ofList cs).utf8ByteSize = byteLength cs := by
  induction cs with
  | nil => rfl
  | cons c cs ih =>
    rw [byteLength_cons, ← ih, ← List.singleton_append, String.ofList_append,
      String.utf8ByteSize_append]
    simp

theorem byteLength_toList (s : String) : byteLength s.toList = s.utf8ByteSize := by
  rw [← utf8ByteSize_ofList, String.ofList_toList]

/-- The text of a range that fits is what stands there. -/
theorem textBetween_append (before piece after : String) :
    textBetween (before ++ (piece ++ after)) before.utf8ByteSize
      (before.utf8ByteSize + piece.utf8ByteSize) = piece := by
  have hfits : before.utf8ByteSize ≤ before.utf8ByteSize + piece.utf8ByteSize ∧
      before.utf8ByteSize + piece.utf8ByteSize ≤ (before ++ (piece ++ after)).utf8ByteSize := by
    rw [String.utf8ByteSize_append, String.utf8ByteSize_append]
    omega
  have hbytes : (before ++ (piece ++ after)).toUTF8.extract before.utf8ByteSize
      (before.utf8ByteSize + piece.utf8ByteSize) = piece.toUTF8 := by
    have hrest := @ByteArray.extract_append_size_add before.toByteArray
      (piece.toByteArray ++ after.toByteArray) 0 piece.toByteArray.size
    rw [ByteArray.extract_append_size_left, ByteArray.extract_zero_size] at hrest
    simpa only [String.toUTF8_eq_toByteArray, String.toByteArray_append, String.size_toByteArray,
      Nat.add_zero] using hrest
  have hvalid : piece.toUTF8.IsValidUTF8 := piece.isValidUTF8
  rw [textBetween, if_pos hfits, hbytes, String.fromUTF8?, dif_pos hvalid]
  rfl

/-- Only a range that fits gives any text. -/
theorem exists_of_textBetween_ne {source : String} {start stop : Nat}
    (h : textBetween source start stop ≠ "") :
    ∃ before piece after : String, source = before ++ (piece ++ after) ∧
      before.utf8ByteSize = start ∧ start + piece.utf8ByteSize = stop := by
  unfold textBetween at h
  split at h
  · rename_i hfits
    obtain ⟨hle, hbound⟩ := hfits
    have hvalid : (source.toUTF8.extract start stop).IsValidUTF8 := by
      by_contra hbroken
      rw [String.fromUTF8?, dif_neg hbroken] at h
      exact h rfl
    have hcases :=
      (@String.Pos.Raw.isValidUTF8_extract_iff source ⟨start⟩ ⟨stop⟩ hle hbound).mp hvalid
    rcases hcases with hsame | ⟨hstart, hstop⟩
    · obtain rfl : start = stop := congrArg (·.byteIdx) hsame
      rw [ByteArray.extract_same] at h
      exact absurd rfl h
    · have hsize : source.toByteArray.size = source.utf8ByteSize := String.size_toByteArray
      have hbytes : source.toByteArray = source.toByteArray.extract 0 start ++
          (source.toByteArray.extract start stop ++
            source.toByteArray.extract stop source.utf8ByteSize) := by
        rw [← ByteArray.extract_eq_extract_append_extract stop hle hbound,
          ← ByteArray.extract_eq_extract_append_extract start (Nat.zero_le _) (hle.trans hbound),
          ← hsize, ByteArray.extract_zero_size]
      refine ⟨⟨_, hstart.isValidUTF8_extract_zero⟩, ⟨_, hvalid⟩,
        ⟨_, hstop.isValidUTF8_extract_utf8ByteSize⟩, String.toByteArray_inj.mp hbytes, ?_, ?_⟩
      · simp only [String.utf8ByteSize_ofByteArray, ByteArray.size_extract, hsize]
        omega
      · simp only [String.utf8ByteSize_ofByteArray, ByteArray.size_extract, hsize,
          String.toUTF8_eq_toByteArray]
        omega
  · exact absurd rfl h

/-- The text that a node covers in a source, if its range fits. -/
def Tree.piece? (source : String) (t : Tree) : Option String :=
  (between? t.label.start t.label.stop source.toList).map String.ofList

theorem Tree.piece?_eq_some {source piece : String} {t : Tree} :
    t.piece? source = some piece ↔
      ∃ before after : String, source = before ++ (piece ++ after) ∧
        before.utf8ByteSize = t.label.start ∧
        t.label.start + piece.utf8ByteSize = t.label.stop := by
  rw [piece?, Option.map_eq_some_iff]
  constructor
  · rintro ⟨cs, hcs, rfl⟩
    obtain ⟨before, after, hsource, hstart, hstop⟩ := between?_eq_some.mp hcs
    refine ⟨.ofList before, .ofList after, ?_, ?_, ?_⟩
    · rw [← String.ofList_append, ← String.ofList_append, ← hsource, String.ofList_toList]
    · rw [utf8ByteSize_ofList, hstart]
    · rw [utf8ByteSize_ofList, hstop]
  · rintro ⟨before, after, rfl, hstart, hstop⟩
    refine ⟨piece.toList, between?_eq_some.mpr ⟨before.toList, after.toList, ?_, ?_, ?_⟩,
      String.ofList_toList⟩
    · rw [String.toList_append, String.toList_append]
    · rw [byteLength_toList, hstart]
    · rw [byteLength_toList, hstop]

/-- A node has the text that it covers, and an empty one if its range does not fit. -/
theorem Tree.text_eq (source : String) (t : Tree) : t.text source = (t.piece? source).getD "" := by
  cases hpiece : t.piece? source with
  | some piece =>
    obtain ⟨before, after, rfl, hstart, hstop⟩ := piece?_eq_some.mp hpiece
    rw [text, ← hstop, ← hstart, textBetween_append]
    rfl
  | none =>
    by_contra hne
    obtain ⟨before, piece, after, hfits⟩ := exists_of_textBetween_ne hne
    have hsome := piece?_eq_some.mpr ⟨before, after, hfits⟩
    rw [hpiece] at hsome
    cases hsome

/-! ### Literals -/

/-- The byte number of the first quote. -/
def quoteAt? : List Char → Option Nat
  | [] => none
  | c :: cs => if isQuote c then some 0 else (quoteAt? cs).map (c.utf8Size + ·)

/-- The value of a literal by the cuts that are made to find it: two that abort where there is no
boundary, and a range that gives nothing there. -/
def decodeOrAbort (text : String) : Except BadCut (Option String) :=
  match quoteAt? text.toList with
  | none => .ok none
  | some n => do
    let (letters, quoted) ← cutAt n text.toList
    let has (c : Char) := letters.any (·.toLower == c)
    if has 'f' || has 'b' || has 't' then return none
    let (quote, _) ← cutAt 1 quoted
    let width :=
      if 6 ≤ byteLength quoted ∧ (quote ++ quote ++ quote).isPrefixOf quoted then 3 else 1
    if byteLength quoted < width then return none
    return (between? width (byteLength quoted - width) quoted).map fun body =>
      String.ofList (if has 'r' then body else unescape body)

theorem isQuote_utf8Size {q : Char} (h : isQuote q = true) : q.utf8Size = 1 := by
  rw [isQuote, Bool.or_eq_true, beq_iff_eq, beq_iff_eq] at h
  rcases h with rfl | rfl <;> rfl

/-- The quote is found where the characters that are no quotes end. -/
theorem quoteAt?_eq (cs : List Char) :
    quoteAt? cs = if cs.dropWhile (!isQuote ·) = [] then none
      else some (byteLength (cs.takeWhile (!isQuote ·))) := by
  induction cs with
  | nil => rfl
  | cons c cs ih =>
    cases hc : isQuote c with
    | true => simp [quoteAt?, hc, byteLength_nil]
    | false =>
      rw [quoteAt?, hc, ih, List.dropWhile_cons_of_pos (by simp [hc]),
        List.takeWhile_cons_of_pos (by simp [hc]), byteLength_cons, if_neg Bool.false_ne_true]
      split <;> rfl

theorem dropBytes_eq (n : Nat) (cs : List Char) :
    dropBytes n cs = (cutAt n cs).toOption.map (·.2) := by
  fun_induction cutAt n cs with
  | case1 => rw [dropBytes]; rfl
  | case2 => rfl
  | case3 n c cs hle ih =>
    rw [dropBytes, if_pos hle, ih]
    cases cutAt (n + 1 - c.utf8Size) cs <;> rfl
  | case4 n c cs hle => rw [dropBytes, if_neg hle]; rfl

theorem dropBytes_eq_some {n : Nat} {cs rest : List Char} :
    dropBytes n cs = some rest ↔ ∃ front, cs = front ++ rest ∧ byteLength front = n := by
  rw [dropBytes_eq]
  constructor
  · intro h
    cases hcut : cutAt n cs with
    | error e =>
      rw [hcut] at h
      cases h
    | ok parts =>
      rw [hcut] at h
      cases h
      exact ⟨parts.1, cutAt_eq_ok.mp hcut⟩
  · rintro ⟨front, hcut⟩
    rw [cutAt_eq_ok.mpr hcut]
    rfl

theorem byteLength_reverse (cs : List Char) : byteLength cs.reverse = byteLength cs := by
  induction cs with
  | nil => rfl
  | cons c cs ih =>
    rw [List.reverse_cons, byteLength_append, ih, byteLength_cons, byteLength_cons, byteLength_nil]
    omega

/-- What is left between marks of the same width at both ends. -/
theorem between?_marks (marks rest : List Char) :
    between? (byteLength marks) (byteLength (marks ++ rest) - byteLength marks) (marks ++ rest) =
      (dropBytes (byteLength marks) rest.reverse).map List.reverse := by
  ext body
  rw [between?_eq_some, Option.map_eq_some_iff]
  constructor
  · rintro ⟨before, after, happend, hbefore, hstop⟩
    -- a text has one beginning of a given width
    have hsame : (marks, rest) = (before, body ++ after) := by
      have hcut := cutAt_append marks rest
      rw [← hbefore, happend, cutAt_append] at hcut
      exact (Except.ok.inj hcut).symm
    obtain ⟨rfl, rfl⟩ := Prod.mk.inj hsame
    refine ⟨body.reverse, dropBytes_eq_some.mpr ⟨after.reverse, List.reverse_append, ?_⟩,
      List.reverse_reverse body⟩
    rw [byteLength_append, byteLength_append] at hstop
    rw [byteLength_reverse]
    omega
  · rintro ⟨left, hdrop, rfl⟩
    obtain ⟨front, hfront, hwidth⟩ := dropBytes_eq_some.mp hdrop
    have hrest : rest = left.reverse ++ front.reverse := by
      rw [← List.reverse_append, ← hfront, List.reverse_reverse]
    refine ⟨marks, front.reverse, by rw [hrest], rfl, ?_⟩
    rw [hrest, byteLength_append, byteLength_append, byteLength_reverse front, hwidth]
    omega

/-- How many quotes a literal begins with. -/
def quoteWidth (q : Char) (quoted : List Char) : Nat :=
  if 6 ≤ byteLength quoted ∧ [q, q, q].isPrefixOf quoted then 3 else 1

theorem between?_quoted {q : Char} (h : isQuote q = true) (rest : List Char) :
    quoteWidth q (q :: rest) ≤ byteLength (q :: rest) ∧
      between? (quoteWidth q (q :: rest))
          (byteLength (q :: rest) - quoteWidth q (q :: rest)) (q :: rest) =
        quotedBody? (q :: rest) := by
  have hsize := isQuote_utf8Size h
  by_cases hlong : 6 ≤ byteLength (q :: rest) ∧ [q, q, q].isPrefixOf (q :: rest)
  · obtain ⟨body, hbody⟩ := List.isPrefixOf_iff_prefix.mp hlong.2
    have hmarks : byteLength [q, q, q] = 3 := by simp [byteLength_cons, byteLength_nil, hsize]
    have hbetween := between?_marks [q, q, q] body
    rw [hmarks, hbody] at hbetween
    rw [quoteWidth, if_pos hlong, hbetween, quotedBody?, if_pos hlong]
    refine ⟨Nat.le_trans (by decide) hlong.1, ?_⟩
    rw [← hbody]
    rfl
  · have hmarks : byteLength [q] = 1 := by simp [byteLength_cons, byteLength_nil, hsize]
    have hbetween := between?_marks [q] rest
    rw [hmarks, List.singleton_append] at hbetween
    rw [quoteWidth, if_neg hlong, hbetween, quotedBody?, if_neg hlong, byteLength_cons, hsize]
    exact ⟨by omega, rfl⟩

/-- Reading a literal does not abort, and finds its value. -/
theorem decodeOrAbort_eq (text : String) : decodeOrAbort text = .ok (decodeLiteral text) := by
  have hsplit := List.takeWhile_append_dropWhile (p := (!isQuote ·)) (l := text.toList)
  rw [decodeOrAbort, decodeLiteral, quoteAt?_eq]
  cases hquoted : text.toList.dropWhile (!isQuote ·) with
  | nil => rfl
  | cons q rest =>
    have hq : isQuote q = true := by
      have hstop := List.head?_dropWhile_not (!isQuote ·) text.toList
      simpa [hquoted] using hstop
    have hcut : cutAt (byteLength (text.toList.takeWhile (!isQuote ·))) text.toList =
        .ok (text.toList.takeWhile (!isQuote ·), q :: rest) :=
      cutAt_eq_ok.mpr ⟨by rw [← hquoted, hsplit], rfl⟩
    have hfirst : cutAt 1 (q :: rest) = .ok ([q], rest) :=
      cutAt_eq_ok.mpr ⟨rfl, by rw [byteLength_cons, isQuote_utf8Size hq]; rfl⟩
    obtain ⟨hwidth, hbetween⟩ := between?_quoted hq rest
    unfold quoteWidth at hwidth hbetween
    simp only [reduceCtorEq, if_false, hcut, hfirst, bind, Except.bind, pure, Except.pure]
    split
    · rfl
    · simp only [List.cons_append, List.nil_append]
      rw [if_neg (Nat.not_lt.mpr hwidth), hbetween]

/-! ### Routes -/

namespace Tree

/-- The values of the pieces in a row of strings; the first piece without a value ends it. -/
def pieceValuesOrAbort (source : String) : List Tree → Except BadCut (Option (List String))
  | [] => .ok (some [])
  | p :: ps => do
    let value ← if p.kind = .string then decodeOrAbort (p.text source) else .ok none
    match value with
    | none => return none
    | some s => return (← pieceValuesOrAbort source ps).map (s :: ·)

def stringValueOrAbort (source : String) (t : Tree) : Except BadCut (Option String) :=
  match t.kind with
  | .string => decodeOrAbort (t.text source)
  | .concatenatedString => do
    let values ← pieceValuesOrAbort source (t.namedChildren.filter (·.kind != .comment))
    return values.map String.join
  | _ => .ok none

/-- The argument whose value a decorator call registers as a route. -/
def routeArgument? (source : String) (rule : RouteRule) (call : Tree) : Option Tree := do
  let function := (← call.childBy? .function).unparenthesized
  guard (function.kind = .attribute)
  let member ← function.childBy? .attribute
  guard (rule.accepts (member.text source))
  call.positionalArguments.head?

def routePatternOrAbort (source : String) (rule : RouteRule) (call : Tree) :
    Except BadCut (Option String) :=
  match call.routeArgument? source rule with
  | none => .ok none
  | some first => first.stringValueOrAbort source

def routesAtOrAbort (source : String) (rule : RouteRule) (c : Cursor) :
    Except BadCut (List RouteRecord) :=
  match c.node.childBy? .name with
  | none => .ok []
  | some name => do
    let patterns ← (decoratorCalls c.parent?).mapM (routePatternOrAbort source rule)
    return (patterns.filterMap id).map fun route => ⟨route, name.text source, c.node.line⟩

/-- The records and the events of a file, with every cut that could abort. -/
def extractOrAbort (source file : String) (rule : RouteRule) (t : Tree) :
    Except BadCut (FileRecord × List Event) := do
  let routes ← (t.walk.filter (·.node.kind == .functionDefinition)).mapM (routesAtOrAbort source rule)
  return (⟨file, t.dependencies source, t.calls source, routes.flatten⟩, t.events source file)

theorem pieceValuesOrAbort_eq (source : String) (ps : List Tree) :
    pieceValuesOrAbort source ps = .ok (ps.mapM fun p =>
      if p.kind = .string then decodeLiteral (p.text source) else none) := by
  induction ps with
  | nil => rfl
  | cons p ps ih =>
    rw [pieceValuesOrAbort, List.mapM_cons, ih]
    split
    · rw [decodeOrAbort_eq]
      cases decodeLiteral (p.text source) with
      | none => rfl
      | some s =>
        cases ps.mapM fun p => if p.kind = .string then decodeLiteral (p.text source) else none <;>
          rfl
    · rfl

theorem stringValueOrAbort_eq (source : String) (t : Tree) :
    t.stringValueOrAbort source = .ok (t.stringValue? source) := by
  unfold stringValueOrAbort stringValue?
  cases t.kind with
  | string => exact decodeOrAbort_eq _
  | concatenatedString =>
    rw [pieceValuesOrAbort_eq]
    rfl
  | _ => rfl

theorem routePatternOrAbort_eq (source : String) (rule : RouteRule) (call : Tree) :
    call.routePatternOrAbort source rule = .ok (call.routePattern? source rule) := by
  have hbind : call.routePattern? source rule =
      (call.routeArgument? source rule).bind (·.stringValue? source) := by
    simp only [routePattern?, routeArgument?, Option.bind_eq_bind, Option.bind_assoc]
  rw [routePatternOrAbort, hbind]
  cases call.routeArgument? source rule with
  | none => rfl
  | some first => exact stringValueOrAbort_eq source first

theorem routesAtOrAbort_eq (source : String) (rule : RouteRule) (c : Cursor) :
    routesAtOrAbort source rule c = .ok (routesAt source rule c) := by
  unfold routesAtOrAbort routesAt
  cases c.node.childBy? .name with
  | none => rfl
  | some name =>
    have hpatterns : (decoratorCalls c.parent?).mapM (routePatternOrAbort source rule) =
        .ok ((decoratorCalls c.parent?).map (routePattern? source rule)) := by
      rw [funext (routePatternOrAbort_eq source rule)]
      exact List.mapM_pure
    rw [hpatterns]
    simp only [bind, Except.bind, pure, Except.pure, List.filterMap_map, List.map_filterMap]
    rfl

/-- Nothing that is taken from a file makes a cut that aborts. -/
theorem extractOrAbort_eq (source file : String) (rule : RouteRule) (t : Tree) :
    t.extractOrAbort source file rule = .ok (t.record source file rule, t.events source file) := by
  have hroutes : (t.walk.filter (·.node.kind == .functionDefinition)).mapM
      (routesAtOrAbort source rule) =
      .ok ((t.walk.filter (·.node.kind == .functionDefinition)).map (routesAt source rule)) := by
    rw [funext (routesAtOrAbort_eq source rule)]
    exact List.mapM_pure
  rw [extractOrAbort, hroutes]
  rfl

end Tree

end Triage.Python
