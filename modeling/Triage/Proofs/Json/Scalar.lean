import Mathlib.Data.List.TakeWhile
import Triage.Json.Decode
import Triage.Json.Printer
import Triage.Json.Reader

/-!
# Strings and numbers read back

The text of a string between its quotes, and the digits of a natural number, are read as what they
were written for, whatever follows them.
-/

namespace Triage.Json

theorem hexValue?_digitChar : ∀ d, d < 16 → hexValue? (Nat.digitChar d) = some d := by decide

theorem hexCode?_of_lt {n : Nat} (h : n < 256) :
    hexCode? '0' '0' (Nat.digitChar (n / 16)) (Nat.digitChar (n % 16)) = some n := by
  have hzero : hexValue? '0' = some 0 := by decide
  have hhigh := hexValue?_digitChar (n / 16) (by omega)
  have hlow := hexValue?_digitChar (n % 16) (by omega)
  simp only [hexCode?, hzero, hhigh, hlow, Option.bind_eq_bind, Option.bind_some, Option.pure_def]
  congr 1
  omega

/-- A character that needs no escape is its own code. -/
theorem codes?_cons {c : Char} (cs : List Char) (hquote : c ≠ '"') (hescape : c ≠ '\\')
    (hprintable : ¬ c.toNat < 32) :
    codes? (c :: cs) = (codes? cs).map fun p => (c.toNat :: p.1, p.2) := by
  rw [codes?.eq_def]
  split
  · simp_all
  · simp_all
  · simp_all
  · simp_all
  · rename_i hcons
    obtain ⟨rfl, rfl⟩ := List.cons.inj hcons
    rw [if_neg hprintable]
    cases codes? cs <;> rfl

/-- A backslash and a letter other than `u` are one code. -/
theorem codes?_short {letter : Char} {n : Nat} (cs : List Char) (hu : letter ≠ 'u')
    (hn : shortEscape? letter = some n) :
    codes? ('\\' :: letter :: cs) = (codes? cs).map fun p => (n :: p.1, p.2) := by
  rw [codes?.eq_def]
  split
  · simp_all
  · simp_all
  · simp_all
  · rename_i heq
    obtain ⟨rfl, rfl⟩ := List.cons.inj (List.cons.inj heq).2
    rw [hn]
    cases codes? cs <;> rfl
  · rename_i hescape heq
    obtain ⟨rfl, rfl⟩ := List.cons.inj heq
    exact absurd rfl (hescape letter cs rfl)

/-- However a character is written, it is read as one code. -/
theorem codes?_escapeChar (c : Char) (cs : List Char) :
    codes? (escapeChar c ++ cs) = (codes? cs).map fun p => (c.toNat :: p.1, p.2) := by
  unfold escapeChar
  split
  · exact codes?_short cs (by decide) rfl
  · exact codes?_short cs (by decide) rfl
  · exact codes?_short cs (by decide) rfl
  · exact codes?_short cs (by decide) rfl
  · exact codes?_short cs (by decide) rfl
  · exact codes?_short cs (by decide) rfl
  · exact codes?_short cs (by decide) rfl
  · rename_i hquote hescape _ _ _ _ _
    split
    · rename_i hcontrol
      have hcode := hexCode?_of_lt (n := c.toNat) (by omega)
      simp only [List.cons_append, List.nil_append, codes?, hcode, Option.bind_eq_bind,
        Option.bind_some, Option.pure_def]
      cases codes? cs <;> rfl
    · rename_i hprintable
      exact codes?_cons cs hquote hescape hprintable

theorem codes?_flatMap (s rest : List Char) :
    codes? (s.flatMap escapeChar ++ '"' :: rest) = some (s.map Char.toNat, rest) := by
  induction s with
  | nil => simp [codes?]
  | cons c s ih => simp [List.flatMap_cons, List.append_assoc, codes?_escapeChar, ih]

theorem not_surrogate (c : Char) :
    isHighSurrogate c.toNat = false ∧ isLowSurrogate c.toNat = false := by
  have hvalid : c.toNat < 0xd800 ∨ 0xdfff < c.toNat ∧ c.toNat < 0x110000 := c.valid
  constructor
  · simp only [isHighSurrogate, Bool.and_eq_false_iff, decide_eq_false_iff_not]
    omega
  · simp only [isLowSurrogate, Bool.and_eq_false_iff, decide_eq_false_iff_not]
    omega

theorem assemble?_map_toNat (s : List Char) : assemble? (s.map Char.toNat) = some s := by
  induction s with
  | nil => rfl
  | cons c s ih =>
    obtain ⟨hhigh, hlow⟩ := not_surrogate c
    rw [List.map_cons, assemble?.eq_def]
    simp [hhigh, hlow, ih]

/-- A quoted text is read back, and reading stops behind its closing quote. -/
theorem string?_quote (s : String) (rest : List Char) :
    string? (s.toList.flatMap escapeChar ++ '"' :: rest) = some (some s, rest) := by
  simp [string?, codes?_flatMap, assemble?_map_toNat]

/-- What may stand behind a number, so that no digit, fraction or exponent is added to it. -/
def EndsNumber (rest : List Char) : Prop :=
  ∀ c ∈ rest.head?, c.isDigit = false ∧ c ≠ '.' ∧ c ≠ 'e' ∧ c ≠ 'E'

theorem endsNumber_nil : EndsNumber [] := by simp [EndsNumber]

theorem takeWhile_digits {ds rest : List Char} (hds : ∀ d ∈ ds, d.isDigit = true)
    (hrest : EndsNumber rest) : (ds ++ rest).takeWhile Char.isDigit = ds := by
  rw [List.takeWhile_append_of_pos hds]
  cases rest with
  | nil => simp
  | cons c rest => simp [(hrest c rfl).1]

theorem dropWhile_digits {ds rest : List Char} (hds : ∀ d ∈ ds, d.isDigit = true)
    (hrest : EndsNumber rest) : (ds ++ rest).dropWhile Char.isDigit = rest := by
  rw [List.dropWhile_append_of_pos hds]
  cases rest with
  | nil => rfl
  | cons c rest => simp [(hrest c rfl).1]

theorem isDigit_of_mem_toDigits {n : Nat} {c : Char} (h : c ∈ Nat.toDigits 10 n) :
    c.isDigit = true :=
  Nat.isDigit_of_mem_toDigits (by decide) (by decide) h

theorem digitChar_ne_zero : ∀ d, d < 10 → 0 < d → Nat.digitChar d ≠ '0' := by decide

/-- Only zero is written with a leading zero. -/
theorem head_toDigits_ne_zero {n : Nat} (h : 0 < n) : (Nat.toDigits 10 n).head? ≠ some '0' := by
  induction n using Nat.strongRecOn with
  | ind n ih =>
    by_cases hsmall : n < 10
    · rw [Nat.toDigits_of_lt_base hsmall]
      simpa using digitChar_ne_zero n hsmall h
    · have hbig : 10 ≤ n := by omega
      rw [Nat.toDigits_of_base_le (by decide) hbig]
      have hne : Nat.toDigits 10 (n / 10) ≠ [] := Nat.toDigits_ne_nil
      obtain ⟨d, ds, hd⟩ := List.exists_cons_of_ne_nil hne
      have hprevious := ih (n / 10) (by omega) (by omega)
      rw [hd] at hprevious ⊢
      exact hprevious

theorem natOfDigits_toDigits (n : Nat) : natOfDigits (Nat.toDigits 10 n) = n := by
  have h := Nat.ofDigitChars_ten_toDigits (n := n)
  unfold natOfDigits
  unfold Nat.ofDigitChars at h
  simpa [Nat.mul_comm] using h

theorem whole?_toDigits (n : Nat) {rest : List Char} (hrest : EndsNumber rest) :
    whole? (Nat.toDigits 10 n ++ rest) = some (Nat.toDigits 10 n, rest) := by
  rcases Nat.eq_zero_or_pos n with rfl | hn
  · rw [Nat.toDigits_zero]
    cases rest with
    | nil => rfl
    | cons c rest => simp [whole?, (hrest c rfl).1]
  · have hds : ∀ d ∈ Nat.toDigits 10 n, d.isDigit = true := fun d hd => isDigit_of_mem_toDigits hd
    have hne : Nat.toDigits 10 n ≠ [] := Nat.toDigits_ne_nil
    have hhead := head_toDigits_ne_zero hn
    unfold whole?
    split
    · rename_i hcons
      cases hd : Nat.toDigits 10 n with
      | nil => exact absurd hd hne
      | cons d ds =>
        rw [hd] at hcons hhead
        exact absurd (congrArg some (List.cons.inj hcons).1) hhead
    · simp [digits?, takeWhile_digits hds hrest, dropWhile_digits hds hrest, hne]

/-- The digits of a natural number are read back as a number. -/
theorem number?_toDigits (n : Nat) {rest : List Char} (hrest : EndsNumber rest) :
    number? (Nat.toDigits 10 n ++ rest) = some (Nat.toDigits 10 n, rest) := by
  have hfraction : fraction? rest = some ([], rest) := by
    unfold fraction?
    split
    · exact absurd rfl (hrest '.' rfl).2.1
    · rfl
  have hexponent : exponent? rest = some ([], rest) := by
    cases rest with
    | nil => rfl
    | cons c rest => simp [exponent?, (hrest c rfl).2.2]
  have hsign : ∀ r, Nat.toDigits 10 n ++ rest ≠ '-' :: r := by
    intro r hr
    cases hd : Nat.toDigits 10 n with
    | nil => exact absurd hd Nat.toDigits_ne_nil
    | cons d ds =>
      have hdigit := isDigit_of_mem_toDigits (n := n) (c := d) (by simp [hd])
      rw [hd] at hr
      rw [(List.cons.inj hr).1] at hdigit
      exact absurd hdigit (by decide)
  unfold number?
  split
  rename_i sign body heq
  split at heq
  · rename_i r hr
    exact absurd hr (hsign r)
  · obtain ⟨rfl, rfl⟩ := Prod.mk.inj heq
    simp [whole?_toDigits n hrest, hfraction, hexponent]

/-- A literal stands for a natural number when it has digits only. -/
theorem integer?_ofLiteral_eq_some_iff {literal : String} {n : Nat} :
    (Numeral.ofLiteral literal).integer? = some n ↔
      (∀ c ∈ literal.toList, c.isDigit = true) ∧ natOfDigits literal.toList = n := by
  generalize hcs : literal.toList = cs
  have hbody : (cs.head? == some '-') = false → cs.dropWhile (· == '-') = cs := by
    intro hsign
    cases cs with
    | nil => rfl
    | cons c cs => exact List.dropWhile_cons_of_neg (by simpa using hsign)
  constructor
  · intro h
    cases hsign : cs.head? == some '-' with
    | true => simp [Numeral.ofLiteral, Numeral.integer?, hcs, hsign] at h
    | false =>
      cases hrest : cs.dropWhile Char.isDigit with
      | nil =>
        have hdigits : ∀ c ∈ cs, c.isDigit = true := List.dropWhile_eq_nil_iff.mp hrest
        have hwhole := List.takeWhile_eq_self_iff.mpr hdigits
        simp only [Numeral.ofLiteral, Numeral.integer?, hcs, hsign, hbody hsign, hrest, hwhole,
          Option.isSome_none, Bool.or_self, Bool.false_eq_true, if_false, Option.some.injEq] at h
        exact ⟨hdigits, h⟩
      | cons c rest =>
        -- what follows the digits is a fraction or an exponent
        exfalso
        by_cases hdot : c = '.'
        · subst hdot
          simp [Numeral.ofLiteral, Numeral.integer?, hcs, hsign, hbody hsign, hrest] at h
        · simp [Numeral.ofLiteral, Numeral.integer?, hcs, hsign, hbody hsign, hrest, hdot] at h
          obtain ⟨hexponent, -⟩ := h
          split at hexponent <;> simp_all
  · rintro ⟨hdigits, rfl⟩
    have hsign : (cs.head? == some '-') = false := by
      cases cs with
      | nil => rfl
      | cons c cs =>
        have hc := hdigits c List.mem_cons_self
        rw [List.head?_cons, beq_eq_false_iff_ne]
        rintro ⟨⟩
        exact absurd hc (by decide)
    have hrest : cs.dropWhile Char.isDigit = [] := List.dropWhile_eq_nil_iff.mpr hdigits
    have hwhole := List.takeWhile_eq_self_iff.mpr hdigits
    simp [Numeral.ofLiteral, Numeral.integer?, hcs, hsign, hbody hsign, hrest, hwhole]

theorem ofLiteral_toDigits (n : Nat) :
    (Numeral.ofLiteral (String.ofList (Nat.toDigits 10 n))).integer? = some n := by
  refine integer?_ofLiteral_eq_some_iff.mpr ?_
  rw [String.toList_ofList]
  exact ⟨fun c hc => isDigit_of_mem_toDigits hc, natOfDigits_toDigits n⟩

/-- A natural number within the limit is taken from its written form. -/
theorem natUpTo?_nat {limit n : Nat} (h : n ≤ limit) :
    (Value.nat n).natUpTo? limit = some n := by
  rw [Value.nat, Value.natUpTo?, ofLiteral_toDigits]
  simp [h]

end Triage.Json
