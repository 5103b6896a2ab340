import Mathlib.Data.List.Nodup
import Mathlib.Data.List.Perm.Basic
import Triage.Files.Walk
import Triage.Proofs.Files.ReadBack
import Triage.SourceFile

/-!
# The order in which entries are listed

Two file systems may hold the same entries and list them in another order. Paths lead to the same
places in both and files hold the same bytes, and a walk finds the same files, in some other order.
-/

namespace Triage

/-- When a key is that of one member at most, the order of the members does not matter to it. -/
theorem filter_key_eq {β κ : Type} [BEq κ] [LawfulBEq κ] {key : β → κ} {l l' : List β}
    (hperm : l.Perm l') (distinct : (l.map key).Nodup) (k : κ) :
    l.filter (key · == k) = l'.filter (key · == k) := by
  have hfilter := hperm.filter (key · == k)
  match hl : l.filter (key · == k) with
  | [] =>
    rw [hl] at hfilter
    exact hfilter.symm.eq_nil.symm
  | [x] =>
    rw [hl] at hfilter
    exact (List.perm_singleton.mp hfilter.symm).symm
  | x :: y :: rest =>
    have hkeys : ((l.filter (key · == k)).map key).Nodup :=
      distinct.sublist (List.filter_sublist.map key)
    have hkey : ∀ z ∈ l.filter (key · == k), key z = k := by
      intro z hz
      exact beq_iff_eq.mp (List.mem_filter.mp hz).2
    rw [hl] at hkeys hkey
    have hsame : key x = key y := (hkey x (by simp)).trans (hkey y (by simp)).symm
    simp [hsame] at hkeys

namespace Files

/-- The same entries, each place once, in whatever order. -/
structure FileSystem.Relists (fs fs' : FileSystem) : Prop where
  entries : fs.entries.Perm fs'.entries
  distinct : (fs.entries.map (·.1)).Nodup
  working : fs.working = fs'.working

namespace FileSystem.Relists

variable {fs fs' : FileSystem}

theorem entry? (h : fs.Relists fs') : fs'.entry? = fs.entry? := by
  funext place
  have hfilter := filter_key_eq h.entries h.distinct place
  simp only [FileSystem.entry?, ← List.head?_filter, hfilter]

/-- The same steps lead to the same place: on the way only single entries are looked up. -/
theorem follow (h : fs.Relists fs') (last : Bool) (links : Nat) (place : Location)
    (steps : List Name) : fs'.follow last links place steps = fs.follow last links place steps := by
  have hentry := h.entry?
  fun_induction FileSystem.follow fs last links place steps <;> rw [FileSystem.follow] <;>
    simp_all only [if_true, if_false, dite_eq_ite, Bool.false_eq_true]

theorem locate (h : fs.Relists fs') (last : Bool) (p : Path) :
    fs'.locate last p = fs.locate last p := by
  simp only [FileSystem.locate, h.follow, h.working]

theorem load (h : fs.Relists fs') (p : Path) : SourceFile.load fs' p = SourceFile.load fs p := by
  simp only [SourceFile.load, FileSystem.readBytes, h.locate]

theorem namesIn (h : fs.Relists fs') (place : Location) :
    (fs.namesIn place).Perm (fs'.namesIn place) :=
  h.entries.filterMap _

theorem ofDirectory (h : fs.Relists fs') (place : Location) :
    IgnoreLevel.ofDirectory fs' place = IgnoreLevel.ofDirectory fs place := by
  simp only [IgnoreLevel.ofDirectory, IgnoreLevel.rulesIn, h.follow]

theorem levelsAbove (h : fs.Relists fs') (place : Location) :
    Files.levelsAbove fs' place = Files.levelsAbove fs place := by
  simp only [Files.levelsAbove, h.ofDirectory]

/-- A directory's entries come in another order, and so do the files below each of them. -/
theorem filesBelow (h : fs.Relists fs') (fuel : Nat) (place : Location) (path : Path)
    (levels : Option (List IgnoreLevel)) :
    (Files.filesBelow fs fuel place path levels).Perm
      (Files.filesBelow fs' fuel place path levels) := by
  induction fuel generalizing place path levels with
  | zero => exact .refl _
  | succ fuel ih =>
    rw [Files.filesBelow, Files.filesBelow]
    split
    · exact .refl _
    · simp only [h.ofDirectory]
      refine (h.namesIn place).flatMap fun (name, entry) _ => ?_
      -- the levels are the same, so both walks pass over the same entries
      cases entry with
      | directory =>
        dsimp only
        split <;> split <;> first | exact .refl _ | exact ih _ _ _
      | file _ => exact .refl _
      | link _ => exact .refl _

/-- A walk finds the same files, in some order. -/
theorem walk? (h : fs.Relists fs') {root : Path} {filtered : Bool} {paths : List Path}
    (hpaths : Files.walk? fs root filtered = some paths) :
    ∃ paths', Files.walk? fs' root filtered = some paths' ∧ paths.Perm paths' := by
  rw [Files.walk?] at hpaths ⊢
  rw [h.locate, ← h.entries.length_eq]
  simp only [h.levelsAbove]
  split at hpaths
  · obtain rfl := Option.some.inj hpaths
    exact ⟨_, rfl, h.filesBelow _ _ _ _⟩
  · cases hpaths

end FileSystem.Relists

end Files

end Triage
