import Mathlib.Data.Nat.Digits.Lemmas
import Triage.Proofs.TextCuts

/-!
# Units of a text with escapes

Between its quotes a literal is cut from left to right into units: escapes that stand for a
character or for nothing, and what is kept as it is, escapes without a meaning included. Every text
has exactly one such cut, and resolving the escapes puts the values of its units together.
-/

namespace Triage.Python

/-! ### Units -/

def HasDigit (base : Nat) (d : Char) : Prop := ∃ v, IsDigit base v d

/-- Digits in front of a rest: as many as there are, up to `width` of them. -/
structure IsRun (base width : Nat) (ds rest : List Char) : Prop where
  digits : ∀ d ∈ ds, HasDigit base d
  within : ds.length ≤ width
  longest : ds.length < width → ∀ d ∈ rest.head?, ¬ HasDigit base d

/-- Escapes with a meaning: the text, its value, and what stands behind it. -/
inductive IsEscape : List Char → List Char → List Char → Prop
  | join {lineEnd rest : List Char} (known : lineEnd ∈ [['\n'], ['\r'], ['\r', '\n']])
      (longest : lineEnd = ['\r'] → rest.head? ≠ some '\n') : IsEscape ('\\' :: lineEnd) [] rest
  | letter {e c : Char} {rest : List Char} (known : (e, c) ∈ letterEscapes) :
      IsEscape ['\\', e] [c] rest
  | octal {ds rest : List Char} {c : Char} (some : ds ≠ []) (run : IsRun 8 3 ds rest)
      (code : Writes 8 ds c.toNat) : IsEscape ('\\' :: ds) [c] rest
  | hexadecimal {e c : Char} {ds rest : List Char} (known : (e, ds.length) ∈ codeEscapes)
      (code : Writes 16 ds c.toNat) : IsEscape ('\\' :: e :: ds) [c] rest

/-- What is kept as it is, and what stands behind it. -/
inductive IsKept : List Char → List Char → Prop
  /-- There are too few digits, or they are the code of no character. -/
  | code {e : Char} {width : Nat} {ds rest : List Char} (known : (e, width) ∈ codeEscapes)
      (run : IsRun 16 width ds rest)
      (useless : ds.length < width ∨ ∀ c : Char, ¬ Writes 16 ds c.toNat) :
      IsKept ('\\' :: e :: ds) rest
  | other {c : Char} {rest : List Char} (line : c ≠ '\n' ∧ c ≠ '\r')
      (letter : ∀ v, (c, v) ∉ letterEscapes) (digit : ¬ HasDigit 8 c)
      (code : ∀ width, (c, width) ∉ codeEscapes) : IsKept ['\\', c] rest
  | alone : IsKept ['\\'] []
  | itself {c : Char} {rest : List Char} (plain : c ≠ '\\') : IsKept [c] rest

inductive BodyUnit where
  | escape (text value : List Char)
  | kept (text : List Char)
deriving DecidableEq, Repr

namespace BodyUnit

def text : BodyUnit → List Char
  | escape text _ => text
  | kept text => text

def value : BodyUnit → List Char
  | escape _ value => value
  | kept text => text

def isEscape : BodyUnit → Bool
  | escape _ _ => true
  | kept _ => false

/-- The unit may stand in front of a rest. -/
def IsBefore : BodyUnit → List Char → Prop
  | escape text value, rest => IsEscape text value rest
  | kept text, rest => IsKept text rest

end BodyUnit

/-- A text and its units from left to right. -/
inductive IsCut : List Char → List BodyUnit → Prop
  | nil : IsCut [] []
  | cons {u : BodyUnit} {rest : List Char} {us : List BodyUnit} (first : u.IsBefore rest)
      (others : IsCut rest us) : IsCut (u.text ++ rest) (u :: us)

/-! ### Digits -/

theorem lt_of_digitValue? {base v : Nat} {d : Char} (h : digitValue? base d = some v) :
    d.toNat < 128 := by
  obtain ⟨hvalue, -⟩ := Option.filter_eq_some_iff.mp h
  have hle : ∀ {top : Char}, top.toNat < 128 → d ≤ top → d.toNat < 128 := by
    intro top htop hd
    exact Nat.lt_of_le_of_lt hd htop
  split at hvalue
  · rename_i hrange
    exact hle (by decide) hrange.2
  · split at hvalue
    · rename_i hrange
      exact hle (by decide) hrange.2
    · split at hvalue
      · rename_i hrange
        exact hle (by decide) hrange.2
      · cases hvalue

theorem isDigit_of_digitValue? {base v : Nat} {d : Char} (hbase : base = 8 ∨ base = 16)
    (h : digitValue? base d = some v) : IsDigit base v d := by
  have hascii : ∀ n < 128, ∀ v ∈ digitValue? 16 (Char.ofNat n),
      Char.ofNat n = v.digitChar ∨ Char.ofNat n = v.digitChar.toUpper := by decide
  obtain ⟨hvalue, hlt⟩ := Option.filter_eq_some_iff.mp h
  have hsmall : v < base := of_decide_eq_true hlt
  have hwide : digitValue? 16 d = some v := by
    refine Option.filter_eq_some_iff.mpr ⟨hvalue, decide_eq_true ?_⟩
    omega
  have hchar := hascii d.toNat (lt_of_digitValue? h) v
  rw [Char.ofNat_toNat] at hchar
  exact ⟨hsmall, hchar hwide⟩

theorem hasDigit_iff {base : Nat} {d : Char} (hbase : base = 8 ∨ base = 16) :
    HasDigit base d ↔ (digitValue? base d).isSome = true := by
  constructor
  · rintro ⟨v, hv⟩
    rw [digitValue?_of_isDigit hbase hv]
    rfl
  · intro h
    obtain ⟨v, hv⟩ := Option.isSome_iff_exists.mp h
    exact ⟨v, isDigit_of_digitValue? hbase hv⟩

theorem IsRun.cons_iff {base width : Nat} {d : Char} {ds rest : List Char} :
    IsRun base (width + 1) (d :: ds) rest ↔ HasDigit base d ∧ IsRun base width ds rest := by
  constructor
  · rintro ⟨hdigits, hwithin, hlongest⟩
    obtain ⟨hd, hds⟩ := List.forall_mem_cons.mp hdigits
    exact ⟨hd, hds, Nat.le_of_succ_le_succ hwithin, fun h => hlongest (Nat.succ_lt_succ h)⟩
  · rintro ⟨hd, hds, hwithin, hlongest⟩
    exact ⟨List.forall_mem_cons.mpr ⟨hd, hds⟩, Nat.succ_le_succ hwithin,
      fun h => hlongest (Nat.lt_of_succ_lt_succ h)⟩

/-- The digits that are taken are the run at the front. -/
theorem digitsAt_eq_iff {base width : Nat} {ds rest : List Char} (hbase : base = 8 ∨ base = 16) :
    digitsAt base width (ds ++ rest) = ds ↔ IsRun base width ds rest := by
  induction width generalizing ds with
  | zero =>
    constructor
    · intro h
      obtain rfl : [] = ds := h
      exact ⟨nofun, Nat.le_refl 0, nofun⟩
    · rintro ⟨-, hwithin, -⟩
      rw [List.length_eq_zero_iff.mp (Nat.le_zero.mp hwithin)]
      rfl
  | succ width ih =>
    cases ds with
    | nil =>
      have hempty : IsRun base (width + 1) [] rest ↔ ∀ d ∈ rest.head?, ¬ HasDigit base d :=
        ⟨fun h => h.longest (Nat.succ_pos width), fun h => ⟨nofun, Nat.zero_le _, fun _ => h⟩⟩
      rw [hempty, List.nil_append]
      cases rest with
      | nil => simp [digitsAt]
      | cons d rest =>
        have hhead : (∀ e ∈ (d :: rest).head?, ¬ HasDigit base e) ↔ ¬ HasDigit base d := by simp
        rw [hhead, hasDigit_iff hbase, digitsAt]
        split <;> simp [*]
    | cons d ds =>
      rw [IsRun.cons_iff, ← ih, hasDigit_iff hbase, List.cons_append, digitsAt]
      split <;> simp [*]

/-- Digits that are taken, in front of the characters that are left. -/
theorem digitsAt_append_drop (base width : Nat) (cs : List Char) :
    digitsAt base width cs ++ cs.drop (digitsAt base width cs).length = cs := by
  induction width generalizing cs with
  | zero => rfl
  | succ width ih =>
    cases cs with
    | nil => rfl
    | cons c cs =>
      rw [digitsAt]
      split
      · rw [List.length_cons, List.drop_succ_cons, List.cons_append, ih]
      · rfl

theorem isRun_digitsAt {base : Nat} (hbase : base = 8 ∨ base = 16) (width : Nat)
    (cs : List Char) :
    IsRun base width (digitsAt base width cs) (cs.drop (digitsAt base width cs).length) := by
  rw [← digitsAt_eq_iff hbase, digitsAt_append_drop]

/-- Digits write the number that they stand for, and no other one. -/
theorem writes_iff {base n : Nat} {ds : List Char} (hbase : base = 8 ∨ base = 16)
    (hdigits : ∀ d ∈ ds, HasDigit base d) : Writes base ds n ↔ n = numberOf base ds := by
  constructor
  · intro h
    exact (numberOf_of_writes hbase h).symm
  · rintro rfl
    obtain ⟨vs, hvs⟩ : ∃ vs, List.Forall₂ (IsDigit base) vs ds := by
      induction ds with
      | nil => exact ⟨[], .nil⟩
      | cons d ds ih =>
        obtain ⟨⟨v, hv⟩, hds⟩ := List.forall_mem_cons.mp hdigits
        obtain ⟨vs, hvs⟩ := ih hds
        exact ⟨v :: vs, .cons hv hvs⟩
    exact ⟨vs, hvs, (numberOf_of_writes hbase ⟨vs, hvs, rfl⟩).symm⟩

theorem Writes.lt {base n : Nat} {ds : List Char} (hbase : 1 < base) (h : Writes base ds n) :
    n < base ^ ds.length := by
  obtain ⟨vs, hdigits, rfl⟩ := h
  have hsmall : ∀ v ∈ vs, v < base := by
    induction hdigits with
    | nil => exact nofun
    | cons hd _ ih => exact List.forall_mem_cons.mpr ⟨hd.1, ih⟩
  have hlength : vs.reverse.length = ds.length := by
    rw [List.length_reverse, hdigits.length_eq]
  rw [← hlength]
  exact Nat.ofDigits_lt_base_pow_length hbase fun v hv => hsmall v (List.mem_reverse.mp hv)

theorem charOf?_eq_some_iff {n : Nat} {c : Char} : charOf? n = some c ↔ n = c.toNat := by
  constructor
  · intro h
    rw [charOf?] at h
    split at h
    · rename_i hvalid
      obtain rfl := Option.some.inj h
      rw [Char.toNat_ofNat, if_pos hvalid]
    · cases h
  · rintro rfl
    exact charOf?_toNat c

/-! ### The unit at the front -/

theorem letterEscape?_eq_some_iff {e c : Char} :
    letterEscape? e = some c ↔ (e, c) ∈ letterEscapes := by
  constructor
  · intro h
    unfold letterEscape? at h
    split at h <;> cases h <;> decide
  · intro h
    simp only [letterEscapes, List.mem_cons, Prod.mk.injEq, List.not_mem_nil, or_false] at h
    rcases h with ⟨rfl, rfl⟩ | ⟨rfl, rfl⟩ | ⟨rfl, rfl⟩ | ⟨rfl, rfl⟩ | ⟨rfl, rfl⟩ | ⟨rfl, rfl⟩ |
      ⟨rfl, rfl⟩ | ⟨rfl, rfl⟩ | ⟨rfl, rfl⟩ | ⟨rfl, rfl⟩ <;> rfl

theorem codeWidth?_eq_some_iff {e : Char} {width : Nat} :
    codeWidth? e = some width ↔ (e, width) ∈ codeEscapes := by
  constructor
  · intro h
    unfold codeWidth? at h
    split at h <;> cases h <;> decide
  · intro h
    simp only [codeEscapes, List.mem_cons, Prod.mk.injEq, List.not_mem_nil, or_false] at h
    rcases h with ⟨rfl, rfl⟩ | ⟨rfl, rfl⟩ | ⟨rfl, rfl⟩ <;> rfl

theorem unitAt_join {lineEnd rest : List Char} (known : lineEnd ∈ [['\n'], ['\r'], ['\r', '\n']])
    (longest : lineEnd = ['\r'] → rest.head? ≠ some '\n') :
    unitAt '\\' (lineEnd ++ rest) = ([], rest) := by
  simp only [List.mem_cons, List.not_mem_nil, or_false] at known
  rcases known with rfl | rfl | rfl
  · simp [unitAt]
  · cases rest with
    | nil => simp [unitAt]
    | cons c rest =>
      have hc : c ≠ '\n' := by simpa using longest rfl
      simp [unitAt, hc]
  · simp [unitAt]

theorem unitAt_of_isEscape {text value rest : List Char} (h : IsEscape text value rest) :
    ∃ cs, text ++ rest = '\\' :: cs ∧ unitAt '\\' cs = (value, rest) := by
  cases h with
  | join known longest => exact ⟨_, rfl, unitAt_join known longest⟩
  | letter known => exact ⟨_, rfl, unitAt_letter known rest⟩
  | @octal ds rest c some run code =>
    refine ⟨_, rfl, ?_⟩
    cases ds with
    | nil => exact absurd rfl some
    | cons d ds =>
      have hrun := (IsRun.cons_iff.mp run).2
      exact unitAt_octal code ((digitsAt_eq_iff (.inl rfl)).mpr hrun)
  | hexadecimal known code => exact ⟨_, rfl, unitAt_hexadecimal known code rest⟩

theorem unitAt_of_isKept {text rest : List Char} (h : IsKept text rest) :
    ∃ c cs, text ++ rest = c :: cs ∧ unitAt c cs = (text, rest) := by
  cases h with
  | @code e width ds rest known run useless =>
    refine ⟨'\\', _, rfl, ?_⟩
    have htaken := (digitsAt_eq_iff (.inr rfl)).mpr run
    have hnone : (if ds.length = width then charOf? (numberOf 16 ds) else none) = none := by
      split
      · rename_i hwidth
        rw [Option.eq_none_iff_forall_ne_some]
        intro c hc
        have hwrites : Writes 16 ds c.toNat :=
          (writes_iff (.inr rfl) run.digits).mpr (charOf?_eq_some_iff.mp hc).symm
        rcases useless with hless | hinvalid
        · omega
        · exact hinvalid c hwrites
      · rfl
    have hunit := unitAt_code known htaken
    rw [hnone] at hunit
    exact hunit
  | @other c rest line letter digit code =>
    have hletter : letterEscape? c = none := by
      rw [Option.eq_none_iff_forall_ne_some]
      intro v hv
      exact letter v (letterEscape?_eq_some_iff.mp hv)
    have hdigit : digitValue? 8 c = none := by
      rw [hasDigit_iff (.inl rfl)] at digit
      simpa using digit
    have hwidth : codeWidth? c = none := by
      rw [Option.eq_none_iff_forall_ne_some]
      intro width hw
      exact code width (codeWidth?_eq_some_iff.mp hw)
    refine ⟨'\\', c :: rest, rfl, ?_⟩
    simp [unitAt, line.1, line.2, hletter, hdigit, hwidth]
  | alone => exact ⟨'\\', [], rfl, rfl⟩
  | @itself c rest plain => exact ⟨c, rest, rfl, if_pos plain⟩

/-- A unit in front of a rest is the one that is read there, with its value. -/
theorem unitAt_of_isBefore {u : BodyUnit} {rest : List Char} (h : u.IsBefore rest) :
    ∃ c cs, u.text ++ rest = c :: cs ∧ unitAt c cs = (u.value, rest) := by
  cases u with
  | escape text value =>
    obtain ⟨cs, htext, hunit⟩ := unitAt_of_isEscape h
    exact ⟨'\\', cs, htext, hunit⟩
  | kept text => exact unitAt_of_isKept h

theorem exists_octal {d : Char} (hd : HasDigit 8 d) (cs : List Char) :
    ∃ u : BodyUnit, ∃ rest, u.IsBefore rest ∧ u.text ++ rest = '\\' :: d :: cs := by
  have hrun := isRun_digitsAt (.inl rfl) 3 (d :: cs)
  have hcut := digitsAt_append_drop 8 3 (d :: cs)
  have hsome : digitsAt 8 3 (d :: cs) ≠ [] := by
    rw [digitsAt, if_pos ((hasDigit_iff (.inl rfl)).mp hd)]
    exact List.cons_ne_nil _ _
  generalize digitsAt 8 3 (d :: cs) = ds at hrun hcut hsome
  have hwrites : Writes 8 ds (numberOf 8 ds) := (writes_iff (.inl rfl) hrun.digits).mpr rfl
  have hsmall : numberOf 8 ds < 8 ^ 3 :=
    Nat.lt_of_lt_of_le (hwrites.lt (by decide)) (Nat.pow_le_pow_right (by decide) hrun.within)
  have hvalid : (numberOf 8 ds).isValidChar := Or.inl (by omega)
  have hcode : (Char.ofNat (numberOf 8 ds)).toNat = numberOf 8 ds := by
    rw [Char.toNat_ofNat, if_pos hvalid]
  refine ⟨.escape ('\\' :: ds) [Char.ofNat (numberOf 8 ds)], _, .octal hsome hrun ?_, ?_⟩
  · rw [hcode]
    exact hwrites
  · exact congrArg ('\\' :: ·) hcut

theorem exists_code {e : Char} {width : Nat} (hknown : (e, width) ∈ codeEscapes) (cs : List Char) :
    ∃ u : BodyUnit, ∃ rest, u.IsBefore rest ∧ u.text ++ rest = '\\' :: e :: cs := by
  have hrun := isRun_digitsAt (.inr rfl) width cs
  have hcut := digitsAt_append_drop 16 width cs
  generalize digitsAt 16 width cs = ds at hrun hcut
  have htext : ∀ rest, ds ++ rest = cs → ('\\' :: e :: ds) ++ rest = '\\' :: e :: cs := by
    rintro rest rfl
    rfl
  by_cases hcode : ds.length = width ∧ ∃ c : Char, Writes 16 ds c.toNat
  · obtain ⟨rfl, c, hc⟩ := hcode
    exact ⟨.escape ('\\' :: e :: ds) [c], _, .hexadecimal hknown hc, htext _ hcut⟩
  · refine ⟨.kept ('\\' :: e :: ds), _, .code hknown hrun ?_, htext _ hcut⟩
    by_cases hlength : ds.length = width
    · exact Or.inr fun c hc => hcode ⟨hlength, c, hc⟩
    · exact Or.inl (Nat.lt_of_le_of_ne hrun.within hlength)

/-- Every text but the empty one has a unit at its front. -/
theorem exists_isBefore (c : Char) (cs : List Char) :
    ∃ u : BodyUnit, ∃ rest, u.IsBefore rest ∧ u.text ++ rest = c :: cs := by
  by_cases hplain : c ≠ '\\'
  · exact ⟨.kept [c], cs, .itself hplain, rfl⟩
  obtain rfl : c = '\\' := not_not.mp hplain
  cases cs with
  | nil => exact ⟨.kept ['\\'], [], .alone, rfl⟩
  | cons d cs =>
    by_cases hline : d = '\n'
    · subst hline
      exact ⟨.escape ['\\', '\n'] [], cs, .join (by decide) (fun h => nomatch h), rfl⟩
    by_cases hreturn : d = '\r'
    · subst hreturn
      by_cases hnext : cs.head? = some '\n'
      · obtain ⟨rest, rfl⟩ := List.head?_eq_some_iff.mp hnext
        exact ⟨.escape ['\\', '\r', '\n'] [], rest, .join (by decide) nofun, rfl⟩
      · exact ⟨.escape ['\\', '\r'] [], cs, .join (by decide) fun _ => hnext, rfl⟩
    by_cases hletter : ∃ v, (d, v) ∈ letterEscapes
    · obtain ⟨v, hv⟩ := hletter
      exact ⟨.escape ['\\', d] [v], cs, .letter hv, rfl⟩
    by_cases hdigit : HasDigit 8 d
    · exact exists_octal hdigit cs
    by_cases hcode : ∃ width, (d, width) ∈ codeEscapes
    · obtain ⟨width, hwidth⟩ := hcode
      exact exists_code hwidth cs
    · exact ⟨.kept ['\\', d], cs, .other ⟨hline, hreturn⟩ (not_exists.mp hletter) hdigit
        (not_exists.mp hcode), rfl⟩

/-- An escape is longer than what it stands for. -/
theorem IsEscape.length_lt {text value rest : List Char} (h : IsEscape text value rest) :
    value.length < text.length := by
  cases h with
  | join _ _ => exact Nat.succ_pos _
  | letter _ => exact Nat.lt_succ_self 1
  | octal some _ _ => exact Nat.succ_lt_succ (List.length_pos_iff.mpr some)
  | hexadecimal _ _ => exact Nat.succ_lt_succ (Nat.succ_pos _)

/-- Two units at the front of a text are the same one. -/
theorem isBefore_unique {u v : BodyUnit} {rest rest' : List Char} (hu : u.IsBefore rest)
    (hv : v.IsBefore rest') (htext : u.text ++ rest = v.text ++ rest') :
    u = v ∧ rest = rest' := by
  obtain ⟨c, cs, hleft, hunit⟩ := unitAt_of_isBefore hu
  obtain ⟨c', cs', hright, hunit'⟩ := unitAt_of_isBefore hv
  obtain ⟨rfl, rfl⟩ : c = c' ∧ cs = cs' := List.cons.inj (hleft.symm.trans (htext.trans hright))
  obtain ⟨hvalue, rfl⟩ : u.value = v.value ∧ rest = rest' :=
    Prod.mk.inj (hunit.symm.trans hunit')
  have hsame : u.text = v.text := List.append_cancel_right htext
  refine ⟨?_, rfl⟩
  cases u with
  | escape text value =>
    cases v with
    | escape text' value' =>
      obtain rfl : text = text' := hsame
      obtain rfl : value = value' := hvalue
      rfl
    | kept text' =>
      obtain rfl : text = text' := hsame
      obtain rfl : value = text := hvalue
      exact absurd (IsEscape.length_lt hu) (Nat.lt_irrefl _)
  | kept text =>
    cases v with
    | escape text' value' =>
      obtain rfl : text = text' := hsame
      obtain rfl : text = value' := hvalue
      exact absurd (IsEscape.length_lt hv) (Nat.lt_irrefl _)
    | kept text' =>
      obtain rfl : text = text' := hsame
      rfl

/-! ### Bytes -/

theorem length_le_byteLength (cs : List Char) : cs.length ≤ byteLength cs := by
  induction cs with
  | nil => exact Nat.le_refl 0
  | cons c cs ih =>
    have hpos := c.utf8Size_pos
    rw [List.length_cons, byteLength_cons]
    omega

/-- Characters with small codes have few bytes. -/
theorem utf8Size_le_of_lt {c : Char} :
    (c.toNat < 0x80 → c.utf8Size ≤ 1) ∧ (c.toNat < 0x800 → c.utf8Size ≤ 2) ∧
      (c.toNat < 0x10000 → c.utf8Size ≤ 3) := by
  have hle : ∀ n : UInt32, c.val ≤ n ↔ c.toNat ≤ n.toNat := fun n => UInt32.le_iff_toNat_le
  simp only [Char.utf8Size, hle]
  refine ⟨?_, ?_, ?_⟩ <;> intro h <;> split_ifs <;> simp at * <;> omega

/-- An escape has no fewer bytes than what it stands for. -/
theorem IsEscape.byteLength_le {text value rest : List Char} (h : IsEscape text value rest) :
    byteLength value ≤ byteLength text := by
  have htext := length_le_byteLength text
  cases h with
  | join _ _ => exact Nat.zero_le _
  | @letter e c rest known =>
    have hascii : ∀ p ∈ letterEscapes, p.2.toNat < 0x80 := by decide
    have hsize : c.utf8Size ≤ 1 := utf8Size_le_of_lt.1 (hascii _ known)
    simp only [byteLength_cons, byteLength_nil, List.length_cons, List.length_nil] at htext ⊢
    omega
  | @octal ds rest c some run code =>
    have hcode : c.toNat < 8 ^ 3 :=
      Nat.lt_of_lt_of_le (code.lt (by decide)) (Nat.pow_le_pow_right (by decide) run.within)
    have hsize := utf8Size_le_of_lt.2.1 (show c.toNat < 0x800 by omega)
    have hsome := List.length_pos_iff.mpr some
    simp only [byteLength_cons, byteLength_nil, List.length_cons] at htext ⊢
    omega
  | @hexadecimal e c ds rest known code =>
    have hcode : c.toNat < 16 ^ ds.length := code.lt (by decide)
    have hsize : c.utf8Size ≤ ds.length := by
      simp only [codeEscapes, List.mem_cons, Prod.mk.injEq, List.not_mem_nil, or_false] at known
      rcases known with ⟨-, hwidth⟩ | ⟨-, hwidth⟩ | ⟨-, hwidth⟩
      · rw [hwidth] at hcode ⊢
        exact utf8Size_le_of_lt.2.1 (by omega)
      · rw [hwidth] at hcode ⊢
        exact Nat.le_succ_of_le (utf8Size_le_of_lt.2.2 (by omega))
      · rw [hwidth]
        exact Nat.le_trans c.utf8Size_le_four (by decide)
    simp only [byteLength_cons, byteLength_nil, List.length_cons] at htext ⊢
    omega

/-! ### Cuts -/

theorem IsCut.text {body : List Char} {us : List BodyUnit} (h : IsCut body us) :
    us.flatMap BodyUnit.text = body := by
  induction h with
  | nil => rfl
  | cons _ _ ih => rw [List.flatMap_cons, ih]

/-- Resolving the escapes of a text puts the values of its units together. -/
theorem IsCut.unescape {body : List Char} {us : List BodyUnit} (h : IsCut body us) :
    unescape body = us.flatMap BodyUnit.value := by
  induction h with
  | nil => simp [Python.unescape]
  | @cons u rest us first _ ih =>
    obtain ⟨c, cs, htext, hunit⟩ := unitAt_of_isBefore first
    rw [htext, Python.unescape, hunit, ih, List.flatMap_cons]

theorem IsCut.unique {body : List Char} {us vs : List BodyUnit} (hu : IsCut body us)
    (hv : IsCut body vs) : vs = us := by
  induction hu generalizing vs with
  | nil =>
    generalize hbody : ([] : List Char) = body at hv
    cases hv with
    | nil => rfl
    | cons first _ =>
      obtain ⟨c, cs, htext, -⟩ := unitAt_of_isBefore first
      rw [htext] at hbody
      cases hbody
  | @cons u rest us first _ ih =>
    generalize hbody : u.text ++ rest = body at hv
    cases hv with
    | nil =>
      obtain ⟨c, cs, htext, -⟩ := unitAt_of_isBefore first
      rw [htext] at hbody
      cases hbody
    | cons first' others' =>
      obtain ⟨rfl, rfl⟩ := isBefore_unique first first' hbody
      rw [ih others']

theorem exists_isCut (body : List Char) : ∃ us, IsCut body us := by
  generalize hn : body.length = n
  induction n using Nat.strong_induction_on generalizing body with
  | _ n ih =>
    cases body with
    | nil => exact ⟨[], .nil⟩
    | cons c cs =>
      obtain ⟨u, rest, hu, htext⟩ := exists_isBefore c cs
      obtain ⟨d, ds, hfront, hunit⟩ := unitAt_of_isBefore hu
      obtain ⟨rfl, rfl⟩ : c = d ∧ cs = ds := List.cons.inj (htext.symm.trans hfront)
      have hshorter : rest.length < n := by
        have hle := unitAt_length_le c cs
        rw [hunit] at hle
        subst hn
        exact Nat.lt_succ_of_le hle
      obtain ⟨us, hus⟩ := ih rest.length hshorter rest rfl
      exact ⟨u :: us, htext ▸ .cons hu hus⟩

theorem IsCut.byteLength_le {body : List Char} {us : List BodyUnit} (h : IsCut body us) :
    byteLength (us.flatMap BodyUnit.value) ≤ byteLength body := by
  induction h with
  | nil => exact Nat.le_refl _
  | @cons u rest us first _ ih =>
    have hunit : byteLength u.value ≤ byteLength u.text := by
      cases u with
      | escape text value => exact IsEscape.byteLength_le first
      | kept text => exact Nat.le_refl _
    rw [List.flatMap_cons, byteLength_append, byteLength_append]
    exact Nat.add_le_add hunit ih

/-- The values of units are no longer than their texts, and as long only without an escape. -/
theorem IsCut.length_le {body : List Char} {us : List BodyUnit} (h : IsCut body us) :
    (us.flatMap BodyUnit.value).length ≤ body.length ∧
      ((us.flatMap BodyUnit.value).length = body.length → ∀ u ∈ us, u.isEscape = false) := by
  induction h with
  | nil => exact ⟨Nat.le_refl _, fun _ => nofun⟩
  | @cons u rest us first _ ih =>
    obtain ⟨hle, hequal⟩ := ih
    rw [List.flatMap_cons, List.length_append, List.length_append]
    cases u with
    | escape text value =>
      have hlt : value.length < text.length := IsEscape.length_lt first
      simp only [BodyUnit.value, BodyUnit.text]
      exact ⟨by omega, fun h => by omega⟩
    | kept text =>
      simp only [BodyUnit.value, BodyUnit.text]
      refine ⟨by omega, fun h => List.forall_mem_cons.mpr ⟨rfl, hequal (by omega)⟩⟩

/-- Without an escape a text is its own value. -/
theorem IsCut.unescape_eq_self_iff {body : List Char} {us : List BodyUnit} (h : IsCut body us) :
    Python.unescape body = body ↔ ∀ u ∈ us, u.isEscape = false := by
  constructor
  · intro hself
    refine h.length_le.2 ?_
    rw [← h.unescape, hself]
  · intro hkept
    have hsame : us.flatMap BodyUnit.value = us.flatMap BodyUnit.text := by
      refine List.flatMap_congr fun u hu => ?_
      cases u with
      | escape text value => cases hkept _ hu
      | kept text => rfl
    rw [h.unescape, hsame, h.text]

/-- A text has exactly one cut into units, and resolving its escapes gives their values one after
the other. So what is kept stays between the values of what stood before and after it, a text
without escapes stays as it is, and none gets more bytes. -/
theorem unescape_units (body : List Char) :
    ∃ us, IsCut body us ∧ (∀ vs, IsCut body vs → vs = us) ∧
      Python.unescape body = us.flatMap BodyUnit.value ∧
      (∀ before kept after, us = before ++ .kept kept :: after →
        body = before.flatMap BodyUnit.text ++ (kept ++ after.flatMap BodyUnit.text) ∧
        Python.unescape body =
          before.flatMap BodyUnit.value ++ (kept ++ after.flatMap BodyUnit.value)) ∧
      (Python.unescape body = body ↔ ∀ u ∈ us, u.isEscape = false) ∧
      (String.ofList (Python.unescape body)).utf8ByteSize ≤ (String.ofList body).utf8ByteSize := by
  obtain ⟨us, hus⟩ := exists_isCut body
  refine ⟨us, hus, fun vs hvs => hus.unique hvs, hus.unescape, ?_, hus.unescape_eq_self_iff, ?_⟩
  · rintro before kept after rfl
    constructor
    · rw [← hus.text, List.flatMap_append, List.flatMap_cons]
      rfl
    · rw [hus.unescape, List.flatMap_append, List.flatMap_cons]
      rfl
  · rw [utf8ByteSize_ofList, utf8ByteSize_ofList, hus.unescape]
    exact hus.byteLength_le

/-- A code with too few digits, a joined line, a code before a digit, the code of a surrogate, and a
backslash at the end. -/
def brokenBody : List Char := "\\x4\\\r\n\\1011\\ud800\\".toList

def brokenUnits : List BodyUnit :=
  [.kept ['\\', 'x', '4'], .escape ['\\', '\r', '\n'] [], .escape ['\\', '1', '0', '1'] ['A'],
    .kept ['1'], .kept ['\\', 'u', 'd', '8', '0', '0'], .kept ['\\']]

theorem isCut_broken : IsCut brokenBody brokenUnits := by
  have hfew : IsKept ['\\', 'x', '4'] "\\\r\n\\1011\\ud800\\".toList := by
    have hrun : IsRun 16 2 ['4'] "\\\r\n\\1011\\ud800\\".toList :=
      (digitsAt_eq_iff (.inr rfl)).mp (by decide)
    exact .code (by decide) hrun (Or.inl (by decide))
  have hjoin : IsEscape ['\\', '\r', '\n'] [] "\\1011\\ud800\\".toList :=
    .join (by decide) (by decide)
  have hoctal : IsEscape ['\\', '1', '0', '1'] ['A'] "1\\ud800\\".toList := by
    have hrun : IsRun 8 3 ['1', '0', '1'] "1\\ud800\\".toList :=
      (digitsAt_eq_iff (.inl rfl)).mp (by decide)
    exact .octal (by decide) hrun ((writes_iff (.inl rfl) hrun.digits).mpr (by decide))
  have hsurrogate : IsKept ['\\', 'u', 'd', '8', '0', '0'] "\\".toList := by
    have hrun : IsRun 16 4 ['d', '8', '0', '0'] "\\".toList :=
      (digitsAt_eq_iff (.inr rfl)).mp (by decide)
    refine .code (by decide) hrun (Or.inr fun c hc => ?_)
    have hnone : charOf? (numberOf 16 ['d', '8', '0', '0']) = none := by decide
    have hchar := charOf?_eq_some_iff.mpr ((writes_iff (.inr rfl) hrun.digits).mp hc).symm
    rw [hnone] at hchar
    cases hchar
  exact .cons (u := .kept _) hfew <| .cons (u := .escape _ _) hjoin <|
    .cons (u := .escape _ _) hoctal <| .cons (u := .kept _) (.itself (by decide)) <|
    .cons (u := .kept _) hsurrogate <| .cons (u := .kept _) .alone .nil

theorem unescape_units_broken :
    IsCut brokenBody brokenUnits ∧ unescape brokenBody = "\\x4A1\\ud800\\".toList := by
  obtain ⟨us, -, hunique, hvalue, -⟩ := unescape_units brokenBody
  obtain rfl := hunique brokenUnits isCut_broken
  exact ⟨isCut_broken, hvalue.trans (by decide)⟩

end Triage.Python
