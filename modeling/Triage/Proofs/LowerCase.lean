import Mathlib
import Triage.Text.Lower

/-!
# Lower case and ASCII

The lower case of a text is taken from the whole of Unicode. Only ASCII letters and the Kelvin sign
have nothing but ASCII in lower case, so a text of ASCII letters without a `k` is the lower case of
exactly those texts that it is the ASCII lower case of.
-/

namespace Triage.Text

/-- The lower-case forms of a character. A capital sigma has a second one, at the end of a word. -/
def lowerForms (c : Char) : List (List Char) :=
  if c = '\u03a3' then [['\u03c3'], ['\u03c2']] else [lowerChar c]

/-- A text is in lower case what another one is, whichever form each sigma takes. -/
def IsLowerOf (low text : String) : Prop :=
  ∃ forms : List (List Char), low.toList = forms.flatten ∧
    List.Forall₂ (fun form c => form ∈ lowerForms c) forms text.toList

/-- A character that no capital outside of ASCII has in lower case. -/
def IsPlainLetter (c : Char) : Prop := c.toNat < 128 ∧ c ≠ 'k'

/-- Beyond ASCII, the characters of a run stay there in lower case, but for the Kelvin sign. -/
theorem lowerRuns_stay : ∀ run ∈ lowerRuns, run.2.1 < 128 ∨
    (128 ≤ run.1 + run.2.2.2 ∨ run.1 = run.2.1 ∧ run.1 + run.2.2.2 = 107) ∧
      (run.2.1 + run.2.2.2 < 0xd800 ∨
        0xdfff < run.1 + run.2.2.2 ∧ run.2.1 + run.2.2.2 < 0x110000) := by
  decide +kernel

/-- A character outside of ASCII has something else than plain letters in lower case. -/
theorem exists_mem_lowerChar {c : Char} (h : 128 ≤ c.toNat) :
    ∃ d ∈ lowerChar c, ¬ IsPlainLetter d := by
  unfold lowerChar
  rw [if_neg (by omega)]
  split
  · -- The capital I with a dot keeps the dot.
    exact ⟨'\u0307', by simp, fun hplain => absurd hplain.1 (by decide)⟩
  · split
    · rename_i first last step distance hfind
      have hmem := List.mem_of_find?_eq_some hfind
      have hrange := List.find?_some hfind
      simp only [Bool.and_eq_true, decide_eq_true_eq] at hrange
      obtain ⟨⟨hfirst, hlast⟩, -⟩ := hrange
      have hstay := lowerRuns_stay _ hmem
      dsimp only at hstay
      refine ⟨_, List.mem_singleton_self _, ?_⟩
      -- The run leads beyond ASCII, unless it is the Kelvin sign, which leads to a `k`.
      rcases hstay with hsmall | ⟨hlow, hvalid⟩
      · omega
      · have hchar : ((c.toNat : Int) + distance).toNat.isValidChar := by
          unfold Nat.isValidChar
          omega
        intro hplain
        have htoNat : (Char.ofNat ((c.toNat : Int) + distance).toNat).toNat =
            ((c.toNat : Int) + distance).toNat := by rw [Char.toNat_ofNat, if_pos hchar]
        rcases hlow with hlow | ⟨hone, hkelvin⟩
        · have := hplain.1
          omega
        · refine hplain.2 (Char.toNat_inj.mp ?_)
          rw [htoNat]
          have : 'k'.toNat = 107 := rfl
          omega
    · exact ⟨c, List.mem_singleton_self c, fun hplain => absurd hplain.1 (by omega)⟩

theorem lowerForms_of_ascii {c : Char} (h : c.toNat < 128) : lowerForms c = [[c.toLower]] := by
  have hsigma : c ≠ '\u03a3' := by
    rintro rfl
    exact absurd h (by decide)
  rw [lowerForms, if_neg hsigma, lowerChar, if_pos h]

theorem exists_mem_of_mem_lowerForms {c : Char} (h : 128 ≤ c.toNat) {form : List Char}
    (hform : form ∈ lowerForms c) : ∃ d ∈ form, ¬ IsPlainLetter d := by
  unfold lowerForms at hform
  split at hform
  · rcases List.mem_pair.mp hform with rfl | rfl
    · exact ⟨_, List.mem_singleton_self _, fun hplain => absurd hplain.1 (by decide)⟩
    · exact ⟨_, List.mem_singleton_self _, fun hplain => absurd hplain.1 (by decide)⟩
  · rw [List.mem_singleton.mp hform]
    exact exists_mem_lowerChar h

theorem lowerChar_mem_lowerForms (c : Char) : lowerChar c ∈ lowerForms c := by
  unfold lowerForms
  split
  · rename_i hsigma
    rw [hsigma]
    decide +kernel
  · exact List.mem_singleton_self _

theorem isLowerOf_lower (s : String) : IsLowerOf (lower s) s := by
  refine ⟨s.toList.map lowerChar, by rw [lower, String.toList_ofList, List.flatMap_def], ?_⟩
  rw [List.forall₂_map_left_iff]
  exact List.forall₂_same.mpr fun c _ => lowerChar_mem_lowerForms c

theorem toNat_lt_of_toLower {c : Char} (h : c.toLower.toNat < 128) : c.toNat < 128 := by
  by_cases hupper : c.isUpper = true
  · simp only [Char.isUpper, ge_iff_le, Bool.decide_and, Bool.and_eq_true, decide_eq_true_eq,
      UInt32.le_iff_toNat_le, Char.toNat_val] at hupper
    have hlast : (90 : UInt32).toNat = 90 := rfl
    exact Nat.lt_of_le_of_lt hupper.2 (by decide)
  · rwa [Char.toLower_eq_of_not_isUpper hupper] at h

section Forms

variable {forms : List (List Char)} {cs : List Char}

/-- Only what is ASCII itself has plain letters in lower case. -/
theorem ascii_of_plain (h : List.Forall₂ (fun form c => form ∈ lowerForms c) forms cs)
    (plain : ∀ d ∈ forms.flatten, IsPlainLetter d) : ∀ c ∈ cs, c.toNat < 128 := by
  induction h with
  | nil => exact List.forall_mem_nil _
  | @cons form c forms cs hform _ ih =>
    refine List.forall_mem_cons.mpr ⟨?_, ih fun d hd => plain d (List.mem_append_right _ hd)⟩
    by_contra hlarge
    obtain ⟨d, hd, hnot⟩ := exists_mem_of_mem_lowerForms (Nat.le_of_not_lt hlarge) hform
    exact hnot (plain d (List.mem_append_left _ hd))

theorem flatten_eq_of_ascii (h : List.Forall₂ (fun form c => form ∈ lowerForms c) forms cs)
    (ascii : ∀ c ∈ cs, c.toNat < 128) : forms.flatten = cs.map Char.toLower := by
  induction h with
  | nil => rfl
  | @cons form c forms cs hform _ ih =>
    obtain ⟨hc, hcs⟩ := List.forall_mem_cons.mp ascii
    rw [lowerForms_of_ascii hc, List.mem_singleton] at hform
    rw [List.flatten_cons, hform, ih hcs]
    rfl

end Forms

theorem isLowerOf_iff_of_ascii {low text : String} (ascii : ∀ c ∈ text.toList, c.toNat < 128) :
    IsLowerOf low text ↔ lowerAscii text = low := by
  constructor
  · rintro ⟨forms, hlow, hforms⟩
    rw [lowerAscii, ← flatten_eq_of_ascii hforms ascii, ← hlow, String.ofList_toList]
  · rintro rfl
    refine ⟨text.toList.map fun c => [c.toLower], ?_, ?_⟩
    · rw [lowerAscii, String.toList_ofList, ← List.flatMap_def, List.map_eq_flatMap]
    · rw [List.forall₂_map_left_iff]
      refine List.forall₂_same.mpr fun c hc => ?_
      rw [lowerForms_of_ascii (ascii c hc)]
      exact List.mem_singleton_self _

theorem ascii_of_lowerAscii {low text : String} (plain : ∀ d ∈ low.toList, IsPlainLetter d)
    (h : lowerAscii text = low) : ∀ c ∈ text.toList, c.toNat < 128 := by
  intro c hc
  rw [← h, lowerAscii, String.toList_ofList] at plain
  exact toNat_lt_of_toLower (plain _ (List.mem_map_of_mem hc)).1

/-- A text of plain letters is the lower case of another exactly when it is that by ASCII alone. -/
theorem isLowerOf_iff {low text : String} (plain : ∀ d ∈ low.toList, IsPlainLetter d) :
    IsLowerOf low text ↔ lowerAscii text = low := by
  constructor
  · intro h
    obtain ⟨forms, hlow, hforms⟩ := id h
    exact (isLowerOf_iff_of_ascii (ascii_of_plain hforms (hlow ▸ plain))).mp h
  · intro h
    exact (isLowerOf_iff_of_ascii (ascii_of_lowerAscii plain h)).mpr h

end Triage.Text
