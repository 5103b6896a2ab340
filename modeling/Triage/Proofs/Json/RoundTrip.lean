import Triage.Proofs.Json.Scalar

/-!
# Values read back

A value that is written in any layout is read as itself when its strings are texts and its numbers
natural. Reading bounds the nesting by the length of the text, which is always enough.
-/

namespace Triage.Json

mutual
/-- A value whose strings are texts and whose numbers are natural. -/
def Value.IsPlain : Value → Prop
  | .number literal => ∃ n, literal = String.ofList (Nat.toDigits 10 n)
  | .string t => t.isSome = true
  | .array vs => Value.ArePlain vs
  | .object ms => Value.ArePlainMembers ms
  | _ => True
def Value.ArePlain : List Value → Prop
  | [] => True
  | v :: vs => v.IsPlain ∧ Value.ArePlain vs
def Value.ArePlainMembers : List (Text × Value) → Prop
  | [] => True
  | (name, v) :: ms => name.isSome = true ∧ v.IsPlain ∧ Value.ArePlainMembers ms
end

theorem skipBlanks_append {bs cs : List Char} {c : Char} (hbs : ∀ b ∈ bs, isBlank b = true)
    (hc : isBlank c = false) : skipBlanks (bs ++ c :: cs) = c :: cs := by
  rw [skipBlanks, List.dropWhile_append_of_pos hbs, List.dropWhile_cons_of_neg (by simp [hc])]

theorem skipBlanks_cons {c : Char} (cs : List Char) (hc : isBlank c = false) :
    skipBlanks (c :: cs) = c :: cs := by
  rw [skipBlanks, List.dropWhile_cons_of_neg (by simp [hc])]

theorem isBlank_of_mem_lineBreak (l : Layout) (depth : Nat) :
    ∀ b ∈ l.lineBreak depth, isBlank b = true := by
  intro b h
  cases l with
  | compact => cases h
  | indented width =>
    rcases List.mem_cons.mp h with rfl | h
    · rfl
    · rw [List.eq_of_mem_replicate h]
      rfl

theorem colon_eq (l : Layout) : ∃ bs, l.colon = ':' :: bs ∧ ∀ b ∈ bs, isBlank b = true := by
  cases l with
  | compact => exact ⟨[], rfl, by simp⟩
  | indented width => exact ⟨[' '], rfl, by simp [isBlank]⟩

/-- A character that begins a value: no blank and no closing bracket. -/
def BeginsValue (c : Char) : Prop := isBlank c = false ∧ c ≠ ']'

theorem beginsValue_of_isDigit {c : Char} (h : c.isDigit = true) : BeginsValue c := by
  constructor
  · cases hb : isBlank c with
    | false => rfl
    | true =>
      simp only [isBlank, Bool.or_eq_true, beq_iff_eq] at hb
      rcases hb with ((rfl | rfl) | rfl) | rfl <;> exact absurd h (by decide)
  · rintro rfl
    exact absurd h (by decide)

theorem render_head (l : Layout) (depth : Nat) (v : Value) (h : v.IsPlain) :
    ∃ c cs, render l depth v = c :: cs ∧ BeginsValue c := by
  cases v with
  | null => exact ⟨'n', _, rfl, by decide, by decide⟩
  | bool b => cases b <;> exact ⟨_, _, rfl, by decide, by decide⟩
  | number literal =>
    obtain ⟨n, rfl⟩ := h
    obtain ⟨d, ds, hd⟩ := List.exists_cons_of_ne_nil (Nat.toDigits_ne_nil (n := n) (b := 10))
    refine ⟨d, ds, by simpa [render] using hd, beginsValue_of_isDigit ?_⟩
    exact isDigit_of_mem_toDigits (n := n) (by simp [hd])
  | string t =>
    cases t with
    | none => cases h
    | some s => exact ⟨'"', _, rfl, by decide, by decide⟩
  | array vs => cases vs <;> exact ⟨'[', _, rfl, by decide, by decide⟩
  | object ms => cases ms <;> exact ⟨'\x7b', _, rfl, by decide, by decide⟩

section Steps

variable {fuel : Nat} {cs r rest : List Char} {v : Value}

theorem value?_array {c : Char} (hcs : skipBlanks cs = c :: r) (hc : c ≠ ']') :
    value? (fuel + 1) ('[' :: cs) = (items? fuel (c :: r)).map fun p => (.array p.1, p.2) := by
  rw [value?.eq_def]
  simp only [hcs]
  split
  · rename_i heq
    exact absurd (List.cons.inj heq).1 hc
  · rfl

theorem value?_object (hcs : skipBlanks cs = '"' :: r) :
    value? (fuel + 1) ('\x7b' :: cs) =
      (members? fuel ('"' :: r)).map fun p => (.object p.1, p.2) := by
  rw [value?.eq_def]
  simp only [hcs]
  rfl

theorem items?_last (hv : value? fuel (skipBlanks cs) = some (v, r))
    (hr : skipBlanks r = ']' :: rest) : items? (fuel + 1) cs = some ([v], rest) := by
  simp [items?, hv, hr]

theorem items?_cons {r' : List Char} {vs : List Value}
    (hv : value? fuel (skipBlanks cs) = some (v, r)) (hr : skipBlanks r = ',' :: r')
    (hvs : items? fuel r' = some (vs, rest)) : items? (fuel + 1) cs = some (v :: vs, rest) := by
  simp [items?, hv, hr, hvs]

variable {name : Text} {named colon : List Char}

theorem members?_last (hquote : skipBlanks cs = '"' :: named)
    (hname : string? named = some (name, colon)) {r₁ r₂ : List Char}
    (hcolon : skipBlanks colon = ':' :: r₁) (hv : value? fuel (skipBlanks r₁) = some (v, r₂))
    (hr : skipBlanks r₂ = '\x7d' :: rest) :
    members? (fuel + 1) cs = some ([(name, v)], rest) := by
  simp [members?, hquote, hname, hcolon, hv, hr]

theorem members?_cons (hquote : skipBlanks cs = '"' :: named)
    (hname : string? named = some (name, colon)) {r₁ r₂ r₃ : List Char}
    (hcolon : skipBlanks colon = ':' :: r₁) (hv : value? fuel (skipBlanks r₁) = some (v, r₂))
    (hr : skipBlanks r₂ = ',' :: r₃) {ms : List (Text × Value)}
    (hms : members? fuel r₃ = some (ms, rest)) :
    members? (fuel + 1) cs = some ((name, v) :: ms, rest) := by
  simp [members?, hquote, hname, hcolon, hv, hr, hms]

end Steps

theorem after?_append (word : String) (rest : List Char) :
    after? word (word.toList ++ rest) = some rest := by
  have hlen : word.length = word.toList.length := String.length_toList.symm
  simp [after?, hlen]

theorem quote_append (s : String) (rest : List Char) :
    quote (some s) ++ rest = '"' :: (s.toList.flatMap escapeChar ++ '"' :: rest) := by
  have h : quote (some s) = '"' :: (s.toList.flatMap escapeChar ++ ['"']) := rfl
  rw [h, List.cons_append, List.append_assoc]
  rfl

theorem value?_quote (fuel : Nat) (cs : List Char) :
    value? (fuel + 1) ('"' :: cs) = (string? cs).map fun p => (.string p.1, p.2) := rfl

theorem value?_digit (fuel : Nat) {d : Char} (ds : List Char) (h : d.isDigit = true) :
    value? (fuel + 1) (d :: ds) =
      (number? (d :: ds)).map fun p => (.number (String.ofList p.1), p.2) := by
  rw [value?.eq_def]
  dsimp only
  split
  case h_7 => rfl
  all_goals
    rename_i heq
    have hd := (List.cons.inj heq).1
    rw [hd] at h
    exact absurd h (by decide)

/-- What stands behind a value inside brackets: line breaks and a bracket, or a comma. -/
theorem endsNumber_closing {l : Layout} {depth : Nat} {c : Char} {rest : List Char}
    (hc : c.isDigit = false ∧ c ≠ '.' ∧ c ≠ 'e' ∧ c ≠ 'E') :
    EndsNumber (l.lineBreak depth ++ c :: rest) := by
  intro b hb
  cases l with
  | compact =>
    obtain rfl : b = c := by simpa [Layout.lineBreak, eq_comm] using hb
    exact hc
  | indented width =>
    obtain rfl : b = '\n' := by simpa [Layout.lineBreak, eq_comm] using hb
    decide

theorem endsNumber_cons {c : Char} (rest : List Char)
    (hc : c.isDigit = false ∧ c ≠ '.' ∧ c ≠ 'e' ∧ c ≠ 'E') : EndsNumber (c :: rest) := by
  intro b hb
  obtain rfl : b = c := by simpa [eq_comm] using hb
  exact hc

theorem render_length_pos (l : Layout) (depth : Nat) {v : Value} (h : v.IsPlain) :
    0 < (render l depth v).length := by
  obtain ⟨c, cs, hcs, _⟩ := render_head l depth v h
  simp [hcs]

theorem skipBlanks_render {bs : List Char} (l : Layout) (depth : Nat) {v : Value}
    (rest : List Char) (hbs : ∀ b ∈ bs, isBlank b = true) (h : v.IsPlain) :
    skipBlanks (bs ++ (render l depth v ++ rest)) = render l depth v ++ rest := by
  obtain ⟨c, cs, hcs, hc⟩ := render_head l depth v h
  rw [hcs, List.cons_append]
  exact skipBlanks_append hbs hc.1

mutual
theorem value?_render (l : Layout) : ∀ (v : Value) (depth fuel : Nat) (rest : List Char),
    v.IsPlain → (render l depth v).length ≤ fuel → EndsNumber rest →
    value? fuel (render l depth v ++ rest) = some (v, rest)
  | v, depth, 0, rest, hv, hlen, _ => by
    have hpos := render_length_pos l depth hv
    omega
  | .null, depth, fuel + 1, rest, _, _, _ => by
    have h := after?_append "null" rest
    simp only [render]
    exact congrArg (Option.map _) h
  | .bool true, depth, fuel + 1, rest, _, _, _ => by
    have h := after?_append "true" rest
    simp only [render]
    exact congrArg (Option.map _) h
  | .bool false, depth, fuel + 1, rest, _, _, _ => by
    have h := after?_append "false" rest
    simp only [render]
    exact congrArg (Option.map _) h
  | .number literal, depth, fuel + 1, rest, hv, _, hrest => by
    obtain ⟨n, rfl⟩ := hv
    obtain ⟨d, ds, hd⟩ := List.exists_cons_of_ne_nil (Nat.toDigits_ne_nil (n := n) (b := 10))
    have hdigit : d.isDigit = true := isDigit_of_mem_toDigits (n := n) (by simp [hd])
    have hn := number?_toDigits n hrest
    have hread := value?_digit fuel (ds ++ rest) hdigit
    rw [← List.cons_append, ← hd, hn, Option.map_some] at hread
    rw [render, String.toList_ofList]
    exact hread
  | .string (some s), depth, fuel + 1, rest, _, _, _ => by
    rw [render, quote_append, value?_quote, string?_quote]
    rfl
  | .string none, depth, fuel + 1, rest, hv, _, _ => by cases hv
  | .array [], depth, fuel + 1, rest, _, _, _ => rfl
  | .array (v :: vs), depth, fuel + 1, rest, hv, hlen, _ => by
    obtain ⟨c, cs, hcs, hc⟩ := render_head l (depth + 1) v hv.1
    have hitems := items?_render l vs v (depth + 1) depth fuel [] rest hv.1 hv.2 (by simp)
      (by simp only [render, List.length_cons, List.length_append] at hlen ⊢; omega)
    have hblank := skipBlanks_render l (depth + 1) (renderItems l (depth + 1) vs ++
      (l.lineBreak depth ++ ']' :: rest)) (isBlank_of_mem_lineBreak l (depth + 1)) hv.1
    rw [hcs, List.cons_append] at hblank
    simp only [render, List.cons_append, List.append_assoc, List.nil_append] at hitems ⊢
    rw [hcs, List.cons_append] at hitems ⊢
    rw [value?_array hblank hc.2, hitems]
    rfl
  | .object [], depth, fuel + 1, rest, _, _, _ => rfl
  | .object ((none, v) :: ms), depth, fuel + 1, rest, hv, _, _ => by cases hv.1
  | .object ((some name, v) :: ms), depth, fuel + 1, rest, hv, hlen, _ => by
    have hmembers := members?_render l ms name v (depth + 1) depth fuel [] rest hv.2.1 hv.2.2
      (by simp) (by simp only [render, List.length_cons, List.length_append] at hlen ⊢; omega)
    simp only [render, quote_append, List.cons_append, List.append_assoc, List.nil_append]
      at hmembers ⊢
    rw [value?_object (skipBlanks_append (isBlank_of_mem_lineBreak l _) rfl), hmembers]
    rfl
termination_by structural _ _ fuel => fuel
theorem items?_render (l : Layout) : ∀ (vs : List Value) (v : Value) (depth outer fuel : Nat)
    (bs rest : List Char), v.IsPlain → Value.ArePlain vs → (∀ b ∈ bs, isBlank b = true) →
    (render l depth v).length + (renderItems l depth vs).length + 1 ≤ fuel →
    items? fuel (bs ++ (render l depth v ++ (renderItems l depth vs ++
      (l.lineBreak outer ++ ']' :: rest)))) = some (v :: vs, rest)
  | _, _, _, _, 0, _, _, _, _, _, hlen => by omega
  | [], v, depth, outer, fuel + 1, bs, rest, hv, _, hbs, hlen => by
    have hvalue := value?_render l v depth fuel (l.lineBreak outer ++ ']' :: rest) hv
      (by omega) (endsNumber_closing (by decide))
    rw [renderItems, List.nil_append]
    apply items?_last
    · rw [skipBlanks_render l depth _ hbs hv]
      exact hvalue
    · exact skipBlanks_append (isBlank_of_mem_lineBreak l _) rfl
  | v' :: vs, v, depth, outer, fuel + 1, bs, rest, hv, hvs, hbs, hlen => by
    have hvalue := fun r => value?_render l v depth fuel (',' :: r) hv (by omega)
      (endsNumber_cons r (by decide))
    have hitems := items?_render l vs v' depth outer fuel (l.lineBreak depth) rest hvs.1 hvs.2
      (isBlank_of_mem_lineBreak l _)
      (by simp only [renderItems, List.length_cons, List.length_append] at hlen; omega)
    simp only [renderItems, List.cons_append, List.append_assoc]
    refine items?_cons ?_ (skipBlanks_cons _ rfl) hitems
    rw [skipBlanks_render l depth _ hbs hv]
    exact hvalue _
termination_by structural _ _ _ _ fuel => fuel
theorem members?_render (l : Layout) : ∀ (ms : List (Text × Value)) (name : String) (v : Value)
    (depth outer fuel : Nat) (bs rest : List Char), v.IsPlain → Value.ArePlainMembers ms →
    (∀ b ∈ bs, isBlank b = true) →
    (quote (some name)).length + (render l depth v).length +
      (renderMembers l depth ms).length + 1 ≤ fuel →
    members? fuel (bs ++ (quote (some name) ++ (l.colon ++ (render l depth v ++
      (renderMembers l depth ms ++ (l.lineBreak outer ++ '\x7d' :: rest)))))) =
        some ((some name, v) :: ms, rest)
  | _, _, _, _, _, 0, _, _, _, _, _, hlen => by omega
  | [], name, v, depth, outer, fuel + 1, bs, rest, hv, _, hbs, hlen => by
    obtain ⟨colonBlanks, hcolon, hcolonBlanks⟩ := colon_eq l
    have hvalue := value?_render l v depth fuel (l.lineBreak outer ++ '\x7d' :: rest) hv
      (by omega) (endsNumber_closing (by decide))
    rw [renderMembers, List.nil_append, hcolon, quote_append, List.cons_append]
    apply members?_last (skipBlanks_append hbs rfl) (string?_quote name _)
      (skipBlanks_cons _ rfl)
    · rw [skipBlanks_render l depth _ hcolonBlanks hv]
      exact hvalue
    · exact skipBlanks_append (isBlank_of_mem_lineBreak l _) rfl
  | (none, _) :: _, _, _, _, _, _ + 1, _, _, _, hms, _, _ => by cases hms.1
  | (some name', v') :: ms, name, v, depth, outer, fuel + 1, bs, rest, hv, hms, hbs, hlen => by
    obtain ⟨colonBlanks, hcolon, hcolonBlanks⟩ := colon_eq l
    have hmembers := members?_render l ms name' v' depth outer fuel (l.lineBreak depth) rest
      hms.2.1 hms.2.2 (isBlank_of_mem_lineBreak l _)
      (by simp only [renderMembers, List.length_cons, List.length_append] at hlen; omega)
    have hvalue := fun r => value?_render l v depth fuel (',' :: r) hv (by omega)
      (endsNumber_cons r (by decide))
    simp only [renderMembers, quote_append, List.cons_append, List.append_assoc, hcolon]
      at hmembers ⊢
    refine members?_cons (skipBlanks_append hbs rfl) (string?_quote name _)
      (skipBlanks_cons _ rfl) ?_
      (skipBlanks_cons _ rfl) hmembers
    rw [skipBlanks_render l depth _ hcolonBlanks hv]
    exact hvalue _
termination_by structural _ _ _ _ _ fuel => fuel
end

/-- A plain value is read back from its text, whatever the layout. -/
theorem read?_print (l : Layout) {v : Value} (h : v.IsPlain) : read? (v.print l) = some v := by
  have hlength : (v.print l).length = (render l 0 v).length := by simp [Value.print]
  have hlist : (v.print l).toList = render l 0 v := by simp [Value.print]
  have hblank : skipBlanks (render l 0 v) = render l 0 v := by
    obtain ⟨c, cs, hcs, hc⟩ := render_head l 0 v h
    rw [hcs]
    exact skipBlanks_cons cs hc.1
  have hvalue : value? ((render l 0 v).length + 1) (render l 0 v) = some (v, []) := by
    simpa using value?_render l v 0 ((render l 0 v).length + 1) [] h (by omega) endsNumber_nil
  rw [read?, hlength, hlist, hblank, hvalue]
  rfl

end Triage.Json
