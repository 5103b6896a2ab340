import Triage.Files.System

/-!
# Files read back

Writing a file changes what is at one place and nothing else, so the path that led to the place
before leads to it afterwards, through the same directories and links. Hence a file that was
written is read with the bytes it was given.
-/

namespace Triage.Files

namespace FileSystem

variable {fs : FileSystem} {place target : Location} {e : Entry}

theorem entry?_nil (fs : FileSystem) : fs.entry? [] = some .directory := rfl

theorem find?_map_put (entries : List (Location × Entry)) (q : Location) :
    ((entries.map fun x => if x.1 = place then (place, e) else x).find? (·.1 == q)).map (·.2) =
      if q = place then (entries.find? (·.1 == q)).map fun _ => e
      else (entries.find? (·.1 == q)).map (·.2) := by
  induction entries with
  | nil => simp
  | cons x entries ih =>
    by_cases hx : x.1 = place
    · by_cases hq : q = place
      · simp [hx, hq]
      · have hne : (place == q) = false := beq_eq_false_iff_ne.mpr (Ne.symm hq)
        simpa [hx, hq, hne] using ih
    · by_cases hq : x.1 = q
      · have hne : q ≠ place := hq ▸ hx
        simp [hq, hne]
      · have hne : (x.1 == q) = false := beq_eq_false_iff_ne.mpr hq
        simpa [hx, hne] using ih

/-- Only the place that is written changes. -/
theorem entry?_put (fs : FileSystem) (place q : Location) (e : Entry) (hplace : place ≠ []) :
    entry? (fs.put place e) q = if q = place then some e else fs.entry? q := by
  by_cases hroot : q = []
  · subst hroot
    rw [if_neg (Ne.symm hplace), entry?_nil, entry?_nil]
  · have hempty : q.isEmpty = false := by simpa using hroot
    unfold put
    split
    · rename_i hany
      simp only [hempty, entry?, Bool.false_eq_true, if_false, find?_map_put]
      split
      · rename_i hq
        subst hq
        obtain ⟨x, hx, hxq⟩ := List.any_eq_true.mp hany
        cases hfind : fs.entries.find? (·.1 == q) with
        | none => exact absurd hxq (List.find?_eq_none.mp hfind x hx)
        | some _ => rfl
      · rfl
    · rename_i hany
      simp only [hempty, entry?, Bool.false_eq_true, if_false, List.find?_append]
      by_cases hq : q = place
      · subst hq
        have hnone : fs.entries.find? (·.1 == q) = none := by
          rw [List.find?_eq_none]
          intro x hx hxq
          exact hany (List.any_eq_true.mpr ⟨x, hx, hxq⟩)
        simp [hnone]
      · have hne : (place == q) = false := beq_eq_false_iff_ne.mpr (Ne.symm hq)
        simp [hq, hne]

/-- What a path leads to is what is there. -/
theorem entry?_of_follow {last : Bool} {links : Nat} {steps : List Name} {found : Option Entry}
    (h : fs.follow last links place steps = .ok (target, found)) : fs.entry? target = found := by
  fun_induction follow fs last links place steps with
  | case1 =>
    obtain ⟨rfl, rfl⟩ := Prod.mk.inj (Except.ok.inj h)
    rfl
  | case2 _ _ _ _ ih => exact ih h
  | case3 _ _ _ _ _ ih => exact ih h
  | case5 _ _ _ _ _ _ _ _ hnone =>
    obtain ⟨rfl, rfl⟩ := Prod.mk.inj (Except.ok.inj h)
    exact hnone
  | case7 _ _ _ _ _ _ _ _ _ hlink =>
    obtain ⟨rfl, rfl⟩ := Prod.mk.inj (Except.ok.inj h)
    exact hlink
  | case9 _ _ _ _ _ _ _ _ _ _ _ ih => exact ih h
  | case10 _ _ _ _ _ _ _ _ _ _ _ ih => exact ih h
  | _ => cases h

/-- A path that leads to no directory and no link leads to the same place when something other
than a link is put there. -/
theorem follow_put {last : Bool} {links : Nat} {steps : List Name} {found : Option Entry}
    (h : fs.follow last links place steps = .ok (target, found))
    (hdirectory : found ≠ some .directory) (hlink : ∀ t, found ≠ some (.link t))
    (he : ∀ t, e ≠ .link t) :
    (fs.put target e).follow last links place steps = .ok (target, some e) := by
  have hfound := entry?_of_follow h
  have hroot : target ≠ [] := by
    rintro rfl
    exact hdirectory hfound.symm
  have hput := fun q => entry?_put fs target q e hroot
  have hkept : ∀ {q : Location} {x : Entry}, fs.entry? q = some x → found ≠ some x →
      entry? (fs.put target e) q = some x := by
    intro q x hq hx
    rw [hput, if_neg, hq]
    rintro rfl
    exact hx (hfound.symm.trans hq)
  fun_induction follow fs last links place steps with
  | case1 =>
    obtain ⟨rfl, rfl⟩ := Prod.mk.inj (Except.ok.inj h)
    rw [follow, hput, if_pos rfl]
  | case2 _ _ _ hplace ih =>
    rw [follow, hkept hplace hdirectory]
    simpa using ih h
  | case3 _ _ _ hplace hup ih =>
    rw [follow, hkept hplace hdirectory]
    simpa [hup] using ih h
  | case5 _ _ n _ hplace hhere hup hlength hnone hempty =>
    obtain ⟨rfl, rfl⟩ := Prod.mk.inj (Except.ok.inj h)
    rw [List.isEmpty_iff.mp hempty, follow, hkept hplace hdirectory]
    have hnew : entry? (fs.put _ e) _ = some e := (hput _).trans (if_pos rfl)
    simp only [hhere, hup, hlength, if_false, hnew]
    rw [follow, hnew]
  | case7 _ _ _ _ _ _ _ _ _ hentry =>
    obtain ⟨rfl, rfl⟩ := Prod.mk.inj (Except.ok.inj h)
    exact absurd rfl (hlink _)
  | case9 _ _ _ hplace hhere hup hlength t hentry hfollowed _ ih =>
    rw [follow, hkept hplace hdirectory]
    simpa [hhere, hup, hlength, hkept hentry (hlink t), hfollowed] using ih h
  | case10 _ place n _ hplace hhere hup hlength x hx hentry ih =>
    rw [follow, hkept hplace hdirectory]
    have hsome : ∃ y, entry? (fs.put target e) (place ++ [n]) = some y ∧ ∀ t, y ≠ .link t := by
      rw [hput]
      split
      · exact ⟨e, rfl, he⟩
      · exact ⟨x, hentry, hx⟩
    obtain ⟨y, hy, hnolink⟩ := hsome
    simp only [hhere, hup, hlength, if_false, hy]
    exact ih h
  | _ => cases h

theorem locate_put {p : Path} {last : Bool} {found : Option Entry}
    (h : fs.locate last p = .ok (target, found))
    (hdirectory : found ≠ some .directory) (hlink : ∀ t, found ≠ some (.link t))
    (he : ∀ t, e ≠ .link t) :
    (fs.put target e).locate last p = .ok (target, some e) := by
  unfold locate at h ⊢
  have hworking : (fs.put target e).working = fs.working := by
    unfold put
    split <;> rfl
  split at h
  · cases h
  · split at h
    · cases h
    · split at h
      · cases h
      · rename_i hnul hempty hlong
        rw [if_neg hnul, if_neg hempty, if_neg hlong, hworking]
        exact follow_put h hdirectory hlink he

/-- A file is written where its path leads, over nothing or over a file. -/
theorem writeBytes_eq_ok {written : FileSystem} {p : Path} {content : ByteArray}
    (h : fs.writeBytes p content = .ok written) :
    ∃ place found, fs.locate true p = .ok (place, found) ∧
      (found = none ∨ ∃ old, found = some (.file old)) ∧
      written = fs.put place (.file content) := by
  unfold writeBytes at h
  cases hlocate : fs.locate true (withoutSlashes p) with
  | error error =>
    rw [hlocate] at h
    cases h
  | ok there =>
    obtain ⟨place, found⟩ := there
    simp only [hlocate, bind, Except.bind] at h
    split at h
    · rename_i place old heq
      obtain ⟨rfl, rfl⟩ := Prod.mk.inj heq
      split at h
      · rename_i hslashes
        exact ⟨place, _, hslashes ▸ hlocate, Or.inr ⟨old, rfl⟩, (Except.ok.inj h).symm⟩
      · cases h
    · cases h
    · rename_i place heq
      obtain ⟨rfl, rfl⟩ := Prod.mk.inj heq
      split at h
      · rename_i hslashes
        exact ⟨place, _, hslashes ▸ hlocate, Or.inl rfl, (Except.ok.inj h).symm⟩
      · cases h

/-- A file that was written is read with its bytes. -/
theorem readBytes_writeBytes {written : FileSystem} {p : Path} {content : ByteArray}
    (h : fs.writeBytes p content = .ok written) : written.readBytes p = .ok content := by
  obtain ⟨place, found, hlocate, hfound, rfl⟩ := writeBytes_eq_ok h
  have hdirectory : found ≠ some .directory := by
    rcases hfound with rfl | ⟨old, rfl⟩ <;> simp
  have hlink : ∀ t, found ≠ some (.link t) := by
    rcases hfound with rfl | ⟨old, rfl⟩ <;> simp
  have hthere := locate_put hlocate hdirectory hlink (e := .file content) (by simp)
  unfold readBytes
  rw [hthere]
  rfl

theorem decode?_toUTF8 (s : String) : Text.decode? s.toUTF8 = some s := by
  have hvalid : s.toUTF8.IsValidUTF8 := s.isValidUTF8
  rw [Text.decode?, String.fromUTF8?, dif_pos hvalid]
  rfl

theorem readText_of_readBytes {p : Path} (s : String) (h : fs.readBytes p = .ok s.toUTF8) :
    fs.readText p = .ok s := by
  simp only [readText, h, bind, Except.bind, decode?_toUTF8]
  rfl

/-- A text that was written is read back. -/
theorem readText_writeText {written : FileSystem} {p : Path} {s : String}
    (h : fs.writeText p s = .ok written) : written.readText p = .ok s :=
  readText_of_readBytes s (readBytes_writeBytes h)

end FileSystem

end Triage.Files
