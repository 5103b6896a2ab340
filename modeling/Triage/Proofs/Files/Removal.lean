import Triage.Proofs.Files.Way

/-!
# Removed directories

A directory that was removed is gone with everything in it, and nothing else changes. Hence its
path leads nowhere afterwards, and so does every path that led through it; all other paths lead
where they led before.
-/

namespace Triage.Files

namespace FileSystem

variable {fs : FileSystem} {place : Location} {p d : Path}
  {remove : Path → FileSystem → Except IoError Unit × FileSystem}

/-- A way to remove directories. With success the place that the path led to is gone, and all that
was below it; without, that much may be gone. Nothing else changes. -/
structure IsRemoval (remove : Path → FileSystem → Except IoError Unit × FileSystem) : Prop where
  working : ∀ p fs, (remove p fs).2.working = fs.working
  led : ∀ {p fs}, (remove p fs).1 = .ok () → ∃ place e, fs.locate false p = .ok (place, some e)
  gone : ∀ {p fs place found q}, (remove p fs).1 = .ok () →
    fs.locate false p = .ok (place, found) → place <+: q → entry? (remove p fs).2 q = none
  kept : ∀ {p fs q}, (∀ place found, fs.locate false p = .ok (place, found) → ¬ place <+: q) →
    entry? (remove p fs).2 q = fs.entry? q

/-- A path leads through the place of a directory, or to something below that place. -/
def LiesIn (fs : FileSystem) (p d : Path) : Prop :=
  ∃ place found, fs.locate false d = .ok (place, found) ∧ ∃ q ∈ fs.way p, place <+: q

/-! ### Removing from a list of entries -/

theorem find?_filter_place (entries : List (Location × Entry)) (keep : Location → Bool)
    (q : Location) :
    (entries.filter fun x => keep x.1).find? (·.1 == q) =
      if keep q then entries.find? (·.1 == q) else none := by
  induction entries with
  | nil => simp
  | cons x entries ih =>
    by_cases hx : x.1 = q
    · subst hx
      by_cases hkeep : keep x.1 = true
      · simp [hkeep]
      · simpa [hkeep] using ih
    · have hne : (x.1 == q) = false := beq_eq_false_iff_ne.mpr hx
      by_cases hkeep : keep x.1 = true
      · simpa [hkeep, hne] using ih
      · simpa [hkeep, hne] using ih

/-- Other places than the root are there for as long as they are kept. -/
theorem entry?_filter (keep : Location → Bool) (q : Location) :
    entry? { fs with entries := fs.entries.filter fun x => keep x.1 } q =
      if q = [] ∨ keep q then fs.entry? q else none := by
  by_cases hroot : q = []
  · subst hroot
    simp [ entry?]
  · simp only [List.isEmpty_iff, entry?, hroot, if_false, false_or, find?_filter_place]
    split <;> rfl

theorem entry?_prune (hplace : place ≠ []) (q : Location) :
    entry? (fs.prune place) q = if place <+: q then none else fs.entry? q := by
  rw [prune, entry?_filter fun l => !place.isPrefixOf l]
  by_cases hq : place <+: q
  · have hbelow : place.isPrefixOf q = true := List.isPrefixOf_iff_prefix.mpr hq
    have hroot : q ≠ [] := by
      rintro rfl
      exact hplace (List.prefix_nil.mp hq)
    simp [hq, hroot, hbelow]
  · have hbelow : place.isPrefixOf q = false :=
      Bool.eq_false_iff.mpr fun h => hq (List.isPrefixOf_iff_prefix.mp h)
    simp [hq, hbelow]

theorem entry?_clear_of_not_below {q : Location} (hq : ¬ place <+: q) :
    entry? (fs.clear place) q = fs.entry? q := by
  have hbelow : place.isPrefixOf q = false :=
    Bool.eq_false_iff.mpr fun h => hq (List.isPrefixOf_iff_prefix.mp h)
  rw [clear, entry?_filter fun l => !(place.isPrefixOf l && l != place), hbelow]
  exact if_pos (Or.inr rfl)

/-- What a removal leaves behind. -/
theorem removeTree_cases (p : Path) (fs : FileSystem) :
    ((removeTree p fs).1 ≠ .ok () ∧ (removeTree p fs).2 = fs) ∨
      ∃ place e, fs.locate false p = .ok (place, some e) ∧
        (((removeTree p fs).1 ≠ .ok () ∧ (removeTree p fs).2 = fs.clear place) ∨
          (place ≠ [] ∧ (removeTree p fs).2 = fs.prune place)) := by
  unfold removeTree
  split
  · exact Or.inl ⟨nofun, rfl⟩
  · exact Or.inl ⟨nofun, rfl⟩
  · rename_i place target hlocate
    refine Or.inr ⟨place, _, hlocate, Or.inr ⟨?_, rfl⟩⟩
    rintro rfl
    cases entry?_of_follow (locate_eq_ok_iff.mp hlocate).2
  · exact Or.inl ⟨nofun, rfl⟩
  · rename_i place hlocate
    refine Or.inr ⟨place, _, hlocate, ?_⟩
    split
    · exact Or.inl ⟨nofun, rfl⟩
    · split
      · exact Or.inl ⟨nofun, rfl⟩
      · rename_i hroot
        exact Or.inr ⟨by simpa using hroot, rfl⟩

/-- The removal of this file system. -/
theorem isRemoval_removeTree : IsRemoval removeTree where
  working p fs := by
    obtain ⟨-, h⟩ | ⟨place, e, -, ⟨-, h⟩ | ⟨-, h⟩⟩ := removeTree_cases p fs <;> rw [h] <;> rfl
  led {p fs} hok := by
    obtain ⟨hnot, -⟩ | ⟨place, e, hlocate, -⟩ := removeTree_cases p fs
    · exact absurd hok hnot
    · exact ⟨place, e, hlocate⟩
  gone {p fs place found q} hok hlocate hq := by
    obtain ⟨hnot, -⟩ | ⟨_, e, hthere, ⟨hnot, -⟩ | ⟨hroot, h⟩⟩ := removeTree_cases p fs
    · exact absurd hok hnot
    · exact absurd hok hnot
    · obtain ⟨rfl, -⟩ := Prod.mk.inj (Except.ok.inj (hthere.symm.trans hlocate))
      rw [h, entry?_prune hroot, if_pos hq]
  kept {p fs q} hout := by
    obtain ⟨-, h⟩ | ⟨place, e, hlocate, ⟨-, h⟩ | ⟨hroot, h⟩⟩ := removeTree_cases p fs
    · rw [h]
    · rw [h, entry?_clear_of_not_below (hout place _ hlocate)]
    · rw [h, entry?_prune hroot, if_neg (hout place _ hlocate)]

/-! ### Paths after a removal -/

theorem IsRemoval.entry?_or (h : IsRemoval remove) (hok : (remove d fs).1 = .ok ())
    (q : Location) : entry? (remove d fs).2 q = fs.entry? q ∨ entry? (remove d fs).2 q = none := by
  obtain ⟨place, e, hlocate⟩ := h.led hok
  by_cases hq : place <+: q
  · exact Or.inr (h.gone hok hlocate hq)
  · refine Or.inl (h.kept fun place' found hlocate' => ?_)
    obtain ⟨rfl, -⟩ := Prod.mk.inj (Except.ok.inj (hlocate.symm.trans hlocate'))
    exact hq

/-- A path that led through a directory leads nowhere when the directory is gone. -/
theorem IsRemoval.locate_of_liesIn (h : IsRemoval remove) (hok : (remove d fs).1 = .ok ())
    (hin : fs.LiesIn p d) (q : Location) (e : Entry) :
    (remove d fs).2.locate true p ≠ .ok (q, some e) := by
  obtain ⟨place, found, hlocate, gone, hway, hprefix⟩ := hin
  intro hthere
  have hstart : (remove d fs).2.start p = fs.start p := by rw [start, start, h.working]
  have hfollow := (locate_eq_ok_iff.mp hthere).2
  rw [hstart] at hfollow
  exact follow_of_gone (h.entry?_or hok) hway (h.gone hok hlocate hprefix) e hfollow

/-- A path that does not lead through a directory is not changed by its removal. -/
theorem IsRemoval.locate_of_not_liesIn (h : IsRemoval remove) (hout : ¬ fs.LiesIn p d) :
    (remove d fs).2.locate true p = fs.locate true p := by
  have hfollow : (remove d fs).2.follow true linkLimit ((remove d fs).2.start p) p.steps =
      fs.follow true linkLimit (fs.start p) p.steps := by
    rw [start, h.working]
    refine follow_congr fun q hq => h.kept fun place found hlocate hprefix => ?_
    exact hout ⟨place, found, hlocate, q, hq, hprefix⟩
  unfold start at hfollow
  unfold locate
  rw [hfollow]

theorem liesIn_self {place : Location} {e : Entry} (h : fs.locate false d = .ok (place, some e)) :
    fs.LiesIn d d :=
  ⟨place, some e, h, place, mem_lookups_of_follow (locate_eq_ok_iff.mp h).2,
    List.prefix_refl place⟩

/-- A directory that was removed is not there. -/
theorem IsRemoval.pathExists_of_ok (h : IsRemoval remove) (hok : (remove d fs).1 = .ok ()) :
    (remove d fs).2.pathExists d = false := by
  obtain ⟨place, e, hlocate⟩ := h.led hok
  rw [Bool.eq_false_iff]
  intro hexists
  obtain ⟨q, e', hthere⟩ := pathExists_iff.mp hexists
  exact h.locate_of_liesIn hok (liesIn_self hlocate) q e' hthere

theorem readText_congr {fs' : FileSystem} (h : fs'.locate true p = fs.locate true p) :
    fs'.readText p = fs.readText p := by
  unfold readText readBytes
  rw [h]

theorem IsRemoval.readText_of_liesIn (h : IsRemoval remove) (hok : (remove d fs).1 = .ok ())
    (hin : fs.LiesIn p d) : ∃ e, (remove d fs).2.readText p = .error e := by
  have hnowhere := h.locate_of_liesIn hok hin
  unfold readText readBytes
  rcases hlocate : (remove d fs).2.locate true p with e | ⟨q, _ | e⟩
  · exact ⟨e, rfl⟩
  · exact ⟨.notFound, rfl⟩
  · exact absurd hlocate (hnowhere q e)

end FileSystem

end Triage.Files
