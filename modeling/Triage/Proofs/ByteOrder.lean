import Mathlib.Data.String.Basic
import Triage.Proofs.Files.PathText

/-!
# The order of texts and of their bytes

Of two characters the greater one has the greater bytes: it begins with a greater byte, or else the
first bytes that differ tell which one it is. So texts are in the same order as their UTF-8, though
a character has up to four bytes. The units of UTF-16 are in another order, where the characters
above U+FFFF come before some of those below.
-/

namespace Triage.Text

variable {v w b : Nat} {xs ys : List UInt8}

theorem cons_ofNat_lt {m n : Nat} (hm : m < 256) (hn : n < 256) (h : m < n ∨ m = n ∧ xs < ys) :
    UInt8.ofNat m :: xs < UInt8.ofNat n :: ys := by
  rw [List.cons_lt_cons_iff]
  rcases h with hlt | ⟨rfl, hrest⟩
  · left
    rwa [UInt8.lt_iff_toNat_lt, toNat_ofNat_of_lt hm, toNat_ofNat_of_lt hn]
  · exact .inr ⟨rfl, hrest⟩

/-! ### The bytes of two numbers

The first byte carries the highest bits, and each byte that continues it the next six bits. -/

theorem leading_lt {width mark : Nat} (hlt : v < w) (hv : v / b < width) (hw : w / b < width)
    (hbyte : width + mark ≤ 256) (hrest : v / b = w / b → xs < ys) :
    UInt8.ofNat (v / b % width + mark) :: xs < UInt8.ofNat (w / b % width + mark) :: ys := by
  rw [Nat.mod_eq_of_lt hv, Nat.mod_eq_of_lt hw]
  have hle : v / b ≤ w / b := Nat.div_le_div_right (Nat.le_of_lt hlt)
  refine cons_ofNat_lt (by omega) (by omega) ?_
  by_cases hsame : v / b = w / b
  · exact .inr ⟨by rw [hsame], hrest hsame⟩
  · exact .inl (by omega)

theorem continuation_lt {above : Nat} (habove : above = b * 64) (hlt : v < w)
    (hsame : v / above = w / above) (hrest : v / b = w / b → xs < ys) :
    UInt8.ofNat (v / b % 64 + 128) :: xs < UInt8.ofNat (w / b % 64 + 128) :: ys := by
  rw [habove, ← Nat.div_div_eq_div_mul, ← Nat.div_div_eq_div_mul] at hsame
  have hle : v / b ≤ w / b := Nat.div_le_div_right (Nat.le_of_lt hlt)
  refine cons_ofNat_lt (by omega) (by omega) ?_
  by_cases hnext : v / b = w / b
  · exact .inr ⟨by rw [hnext], hrest hnext⟩
  · exact .inl (by omega)

theorem last_lt (hlt : v < w) (hsame : v / 64 = w / 64) :
    UInt8.ofNat (v % 64 + 128) :: xs < UInt8.ofNat (w % 64 + 128) :: ys :=
  cons_ofNat_lt (by omega) (by omega) (.inl (by omega))

/-- The bytes of a character are below those of a greater one, whatever follows them. -/
theorem encode_append_lt {c d : Char} (h : c < d) (xs ys : List UInt8) :
    String.utf8EncodeChar c ++ xs < String.utf8EncodeChar d ++ ys := by
  have hlt : c.val.toNat < d.val.toNat := h
  have hvalid : d.val.toNat < 0xd800 ∨ 0xdfff < d.val.toNat ∧ d.val.toNat < 0x110000 := d.valid
  rw [String.utf8EncodeChar.eq_def, String.utf8EncodeChar.eq_def]
  generalize c.val.toNat = v at hlt
  generalize d.val.toNat = w at hlt hvalid
  dsimp only
  -- With more bytes comes a greater first byte; as many bytes are compared one after the other.
  by_cases hone : v ≤ 127
  · rw [if_pos hone]
    split_ifs <;> exact cons_ofNat_lt (by omega) (by omega) (.inl (by omega))
  rw [if_neg hone, if_neg (show ¬ w ≤ 127 by omega)]
  by_cases htwo : v ≤ 2047
  · rw [if_pos htwo]
    split_ifs
    · exact leading_lt hlt (by omega) (by omega) (by omega) (last_lt hlt)
    · exact cons_ofNat_lt (by omega) (by omega) (.inl (by omega))
    · exact cons_ofNat_lt (by omega) (by omega) (.inl (by omega))
  rw [if_neg htwo, if_neg (show ¬ w ≤ 2047 by omega)]
  by_cases hthree : v ≤ 65535
  · rw [if_pos hthree]
    split_ifs
    · exact leading_lt hlt (by omega) (by omega) (by omega) fun hfirst =>
        continuation_lt rfl hlt hfirst (last_lt hlt)
    · exact cons_ofNat_lt (by omega) (by omega) (.inl (by omega))
  rw [if_neg hthree, if_neg (show ¬ w ≤ 65535 by omega)]
  exact leading_lt hlt (by omega) (by omega) (by omega) fun hfirst =>
    continuation_lt rfl hlt hfirst fun hsecond => continuation_lt rfl hlt hsecond (last_lt hlt)

theorem flatMap_encode_lt {cs ds : List Char} (h : cs < ds) :
    cs.flatMap String.utf8EncodeChar < ds.flatMap String.utf8EncodeChar := by
  induction h with
  | nil =>
    rename_i d ds
    obtain ⟨byte, bytes, hbytes⟩ :=
      List.exists_cons_of_ne_nil (String.utf8EncodeChar_ne_nil (c := d))
    rw [List.flatMap_nil, List.flatMap_cons, hbytes]
    exact .nil
  | rel hlt => exact encode_append_lt hlt _ _
  | cons _ ih => exact List.append_left_lt ih

/-- Texts are in the order of their bytes. -/
theorem toUTF8_lt_iff {s t : String} : s.toUTF8.toList < t.toUTF8.toList ↔ s < t := by
  have hforth : ∀ {s t : String}, s < t → s.toUTF8.toList < t.toUTF8.toList := by
    intro s t h
    rw [toUTF8_toList, toUTF8_toList]
    exact flatMap_encode_lt (String.lt_iff.mp h)
  refine ⟨fun h => ?_, hforth⟩
  rcases lt_trichotomy s t with hlt | rfl | hgt
  · exact hlt
  · exact absurd h (List.lt_irrefl _)
  · exact absurd h (List.lt_asymm (hforth hgt))

end Triage.Text
