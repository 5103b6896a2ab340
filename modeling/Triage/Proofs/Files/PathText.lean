import Mathlib.Data.List.TakeWhile
import Triage.Files.Path

/-!
# Paths whose names are texts

Bytes that are the UTF-8 of a text are read back as that text, so paths that are texts are told
apart by their texts. Other paths need not be: a byte that begins no character is read as U+FFFD,
whichever byte it is.
-/

namespace Triage.Text

theorem toNat_ofNat_of_lt {n : Nat} (h : n < 256) : (UInt8.ofNat n).toNat = n :=
  UInt8.toNat_ofNat_of_lt' h

/-- The byte that carries the last six bits of a number. -/
theorem toNat_lowByte (n : Nat) : (UInt8.ofNat (n % 64 + 128)).toNat = n % 64 + 128 :=
  toNat_ofNat_of_lt (by omega)

theorem widthOf_two {b : Nat} (low : 0xc2 ≤ b) (high : b < 0xe0) : widthOf b = 2 := by
  rw [widthOf, if_neg (by omega), if_neg (by omega), if_pos high]

theorem widthOf_three {b : Nat} (low : 0xe0 ≤ b) (high : b < 0xf0) : widthOf b = 3 := by
  rw [widthOf, if_neg (by omega), if_neg (by omega), if_neg (by omega), if_pos high]

theorem widthOf_four {b : Nat} (low : 0xf0 ≤ b) (high : b < 0xf5) : widthOf b = 4 := by
  rw [widthOf, if_neg (by omega), if_neg (by omega), if_neg (by omega), if_neg (by omega),
    if_pos high]

theorem isContinuation_lowByte (n : Nat) :
    isContinuation (UInt8.ofNat (n % 64 + 128)).toNat = true := by
  rw [toNat_lowByte, isContinuation, Bool.and_eq_true]
  exact ⟨decide_eq_true (by omega), decide_eq_true (by omega)⟩

/-- The second bytes are the continuation bytes, but for four first bytes. -/
theorem mem_secondRange {a b : Nat} (continues : 0x80 ≤ b ∧ b ≤ 0xbf)
    (long : a = 0xe0 → 0xa0 ≤ b) (surrogate : a = 0xed → b ≤ 0x9f)
    (longer : a = 0xf0 → 0x90 ≤ b) (large : a = 0xf4 → b ≤ 0x8f) :
    (secondRange a).1 ≤ b ∧ b ≤ (secondRange a).2 := by
  unfold secondRange
  split_ifs with h₁ h₂ h₃ h₄
  · exact ⟨long h₁, continues.2⟩
  · exact ⟨continues.1, surrogate h₂⟩
  · exact ⟨longer h₃, continues.2⟩
  · exact ⟨continues.1, large h₄⟩
  · exact continues

/-- A first byte, a second byte that may follow it, and continuation bytes up to the width. -/
theorem leadingRun_append {a b : UInt8} {cs : List UInt8} (bs : List UInt8)
    (width : widthOf a.toNat = cs.length + 2)
    (follows : (secondRange a.toNat).1 ≤ b.toNat ∧ b.toNat ≤ (secondRange a.toNat).2)
    (continues : ∀ c ∈ cs, isContinuation c.toNat = true) :
    leadingRun (a :: b :: cs ++ bs) = a :: b :: cs := by
  have hwide : ¬ cs.length + 2 ≤ 1 := by omega
  have hrest : ((cs ++ bs).take cs.length).takeWhile (isContinuation ·.toNat) = cs := by
    rw [List.take_left, List.takeWhile_eq_self_iff]
    exact continues
  simp only [List.cons_append, leadingRun, width, if_neg hwide, if_pos follows,
    Nat.add_sub_cancel, hrest]

/-- The bytes of a character go together, whatever follows. -/
theorem leadingRun_encode (c : Char) (bs : List UInt8) :
    leadingRun (String.utf8EncodeChar c ++ bs) = String.utf8EncodeChar c := by
  have hvalid : c.val.toNat < 0xd800 ∨ 0xdfff < c.val.toNat ∧ c.val.toNat < 0x110000 := c.valid
  rw [String.utf8EncodeChar.eq_def]
  generalize c.val.toNat = v at hvalid
  dsimp only
  split
  · have ha := toNat_ofNat_of_lt (n := v) (by omega)
    have hw : widthOf v = 1 := if_pos (by omega)
    simp only [List.cons_append, List.nil_append, leadingRun, ha, hw, Nat.le_refl, if_true]
  · split
    · have ha := toNat_ofNat_of_lt (n := v / 64 % 32 + 192) (by omega)
      refine leadingRun_append bs ?_ ?_ (List.forall_mem_nil _)
      · rw [ha]
        exact widthOf_two (by omega) (by omega)
      · rw [ha, toNat_lowByte]
        exact mem_secondRange (by omega) (by omega) (by omega) (by omega) (by omega)
    · split
      · have ha := toNat_ofNat_of_lt (n := v / 4096 % 16 + 224) (by omega)
        refine leadingRun_append bs ?_ ?_ (List.forall_mem_singleton.mpr (isContinuation_lowByte _))
        · rw [ha]
          exact widthOf_three (by omega) (by omega)
        · rw [ha, toNat_lowByte]
          exact mem_secondRange (by omega) (by omega) (by omega) (by omega) (by omega)
      · have ha := toNat_ofNat_of_lt (n := v / 262144 % 8 + 240) (by omega)
        refine leadingRun_append bs ?_ ?_ (List.forall_mem_cons.mpr
          ⟨isContinuation_lowByte _, List.forall_mem_singleton.mpr (isContinuation_lowByte _)⟩)
        · rw [ha]
          exact widthOf_four (by omega) (by omega)
        · rw [ha, toNat_lowByte]
          exact mem_secondRange (by omega) (by omega) (by omega) (by omega) (by omega)

/-- The bytes of a character stand for it. -/
theorem charOfRun?_encode (c : Char) : charOfRun? (String.utf8EncodeChar c) = some c := by
  have hvalid : c.val.toNat < 0xd800 ∨ 0xdfff < c.val.toNat ∧ c.val.toNat < 0x110000 := c.valid
  have hchar : Char.ofNat c.val.toNat = c := Char.ofNat_toNat c
  rw [String.utf8EncodeChar.eq_def]
  generalize c.val.toNat = v at hvalid hchar
  dsimp only
  split
  · have ha := toNat_ofNat_of_lt (n := v) (by omega)
    simp only [charOfRun?, List.map_cons, List.map_nil, ha, if_pos (show v < 0x80 by omega), hchar]
  · split
    · have ha := toNat_ofNat_of_lt (n := v / 64 % 32 + 192) (by omega)
      have hw : widthOf (v / 64 % 32 + 192) = 2 := widthOf_two (by omega) (by omega)
      have hv : (v / 64 % 32 + 192 - 0xc0) * 64 + (v % 64 + 128 - 0x80) = v := by omega
      simp only [charOfRun?, List.map_cons, List.map_nil, ha, toNat_lowByte, hw, if_true, hv, hchar]
    · split
      · have ha := toNat_ofNat_of_lt (n := v / 4096 % 16 + 224) (by omega)
        have hw : widthOf (v / 4096 % 16 + 224) = 3 := widthOf_three (by omega) (by omega)
        have hv : (v / 4096 % 16 + 224 - 0xe0) * 4096 + (v / 64 % 64 + 128 - 0x80) * 64 +
            (v % 64 + 128 - 0x80) = v := by omega
        simp only [charOfRun?, List.map_cons, List.map_nil, ha, toNat_lowByte, hw, if_true, hv,
          hchar]
      · have ha := toNat_ofNat_of_lt (n := v / 262144 % 8 + 240) (by omega)
        have hw : widthOf (v / 262144 % 8 + 240) = 4 := widthOf_four (by omega) (by omega)
        have hv : (v / 262144 % 8 + 240 - 0xf0) * 262144 + (v / 4096 % 64 + 128 - 0x80) * 4096 +
            (v / 64 % 64 + 128 - 0x80) * 64 + (v % 64 + 128 - 0x80) = v := by omega
        simp only [charOfRun?, List.map_cons, List.map_nil, ha, toNat_lowByte, hw, if_true, hv,
          hchar]

theorem decodeLossy_cons_char (c : Char) (bs : List UInt8) :
    decodeLossy (String.utf8EncodeChar c ++ bs) = c :: decodeLossy bs := by
  have hrun := leadingRun_encode c bs
  have hchar := charOfRun?_encode c
  cases hbytes : String.utf8EncodeChar c with
  | nil => exact absurd hbytes String.utf8EncodeChar_ne_nil
  | cons b more =>
    rw [hbytes] at hrun hchar
    rw [List.cons_append] at hrun ⊢
    rw [decodeLossy, hrun, hchar, ← List.cons_append, List.drop_left]
    rfl

/-- The bytes of a text are read back as the text. -/
theorem decodeLossy_encode (cs : List Char) :
    decodeLossy (cs.flatMap String.utf8EncodeChar) = cs := by
  induction cs with
  | nil => simp [decodeLossy]
  | cons c cs ih => rw [List.flatMap_cons, decodeLossy_cons_char, ih]

theorem toList_loop (bytes : ByteArray) (i : Nat) (front : List UInt8) :
    ByteArray.toList.loop bytes i front = front.reverse ++ bytes.data.toList.drop i := by
  fun_induction ByteArray.toList.loop bytes i front with
  | case1 i front h ih =>
    have hi : i < bytes.data.toList.length := by simpa using h
    have hget : bytes.get! i = bytes.data.toList[i] := by simp [ByteArray.get!, h]
    rw [ih, List.drop_eq_getElem_cons hi, hget, List.reverse_cons, List.append_assoc,
      List.singleton_append]
  | case2 i front h =>
    have hi : bytes.data.toList.length ≤ i := by simpa using Nat.le_of_not_lt h
    rw [List.drop_eq_nil_of_le hi, List.append_nil]

theorem toUTF8_toList (s : String) : s.toUTF8.toList = s.toList.flatMap String.utf8EncodeChar := by
  have hbytes : s.toUTF8 = (s.toList.flatMap String.utf8EncodeChar).toByteArray :=
    String.utf8Encode_toList.symm
  rw [hbytes, ByteArray.toList, toList_loop, List.reverse_nil, List.nil_append, List.drop_zero,
    List.toList_data_toByteArray]

end Triage.Text

namespace Triage.Files.Path

/-- A path that is a text has that text. -/
theorem text_ofString (s : String) : (ofString s).text = s := by
  rw [ofString, text, Text.toUTF8_toList, Text.decodeLossy_encode, String.ofList_toList]

end Triage.Files.Path
