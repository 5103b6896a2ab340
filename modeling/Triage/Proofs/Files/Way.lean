import Triage.Proofs.Files.ReadBack

/-!
# The way of a path

Following a path looks at one place after the other, and what is found depends on those places
alone. So whatever leaves directories and links as they are leaves every directory where it was,
and a path that loses one of the places on its way leads to nothing.
-/

namespace Triage.Files

namespace FileSystem

variable {fs fs' : FileSystem} {last : Bool} {links : Nat} {place target : Location}
  {steps : List Name}

/-- The places that are looked at, one after the other, when steps are followed. -/
def lookups (fs : FileSystem) (last : Bool) : Nat → Location → List Name → List Location
  | _, place, [] => [place]
  | links, place, n :: rest =>
    place ::
      match fs.entry? place with
      | some .directory =>
        if n = hereName then lookups fs last links place rest
        else if n = upName then lookups fs last links place.dropLast rest
        else if nameLimit < n.length then []
        else
          (place ++ [n]) ::
            match fs.entry? (place ++ [n]) with
            | none => []
            | some (.link target) =>
              if rest.isEmpty && !last then []
              else
                match links with
                | 0 => []
                | links + 1 =>
                  lookups fs last links (if target.isAbsolute then [] else place)
                    (target.steps ++ rest)
            | some _ => lookups fs last links (place ++ [n]) rest
      | _ => []
termination_by links _ steps => (links, steps.length)

/-- Where a path starts. -/
def start (fs : FileSystem) (p : Path) : Location := if p.isAbsolute then [] else fs.working

/-- The places on the way of a path, the one it leads to among them. -/
def way (fs : FileSystem) (p : Path) : List Location :=
  fs.lookups true linkLimit (fs.start p) p.steps

/-- Where steps lead depends on the places that are looked at, and on nothing else. -/
theorem follow_congr (h : ∀ q ∈ fs.lookups last links place steps, fs'.entry? q = fs.entry? q) :
    fs'.follow last links place steps = fs.follow last links place steps := by
  fun_induction follow fs last links place steps with
  | _ =>
    -- One or two places are looked at in a step; with the same entries there it goes the same way.
    rw [lookups] at h
    rw [follow]
    grind

/-- Steps lead nowhere when one of the places that were looked at is gone, and all others are as
they were or gone too. -/
theorem follow_of_gone (hsame : ∀ q, fs'.entry? q = fs.entry? q ∨ fs'.entry? q = none)
    {gone : Location} (hlooked : gone ∈ fs.lookups last links place steps)
    (hgone : fs'.entry? gone = none) (e : Entry) :
    fs'.follow last links place steps ≠ .ok (target, some e) := by
  fun_induction follow fs last links place steps with
  | _ =>
    -- Every step ends where its place is gone, and goes on as before where it is not.
    rw [lookups] at hlooked
    rw [follow]
    grind

/-- The target of steps is the last place that is looked at. -/
theorem mem_lookups_of_follow {last' : Bool} {found : Option Entry}
    (h : fs.follow last links place steps = .ok (target, found)) :
    target ∈ fs.lookups (last || last') links place steps := by
  fun_induction follow fs last links place steps with
  | _ =>
    rw [lookups]
    grind

theorem entry?_of_follow_directory
    (h : fs.follow last links place steps = .ok (target, some .directory)) :
    fs.entry? place = some .directory := by
  cases steps with
  | nil =>
    rw [follow] at h
    obtain ⟨-, hplace⟩ := Prod.mk.inj (Except.ok.inj h)
    exact hplace
  | cons n rest =>
    rw [follow] at h
    split at h
    · assumption
    · cases h
    · cases h

/-- On the way to a directory there are only directories and links. -/
theorem entry?_of_mem_lookups
    (h : fs.follow last links place steps = .ok (target, some .directory)) {q : Location}
    (hq : q ∈ fs.lookups last links place steps) :
    ∃ e, fs.entry? q = some e ∧ ∀ content, e ≠ .file content := by
  fun_induction follow fs last links place steps with
  | case10 =>
    have hnext := entry?_of_follow_directory h
    rw [lookups] at hq
    grind
  | _ =>
    rw [lookups] at hq
    grind

/-! ### Paths -/

/-- What a system takes for a path. -/
def IsUsable (p : Path) : Prop :=
  0 ∉ p.bytes ∧ p.isEmpty = false ∧ p.bytes.length < pathLimit

theorem locate_eq_ok_iff {p : Path} {found : Location × Option Entry} :
    fs.locate last p = .ok found ↔
      IsUsable p ∧ fs.follow last linkLimit (fs.start p) p.steps = .ok found := by
  unfold locate IsUsable start
  by_cases hnul : 0 ∈ p.bytes
  · simp [hnul]
  · by_cases hempty : p.isEmpty = true
    · simp [hnul, hempty]
    · by_cases hlong : pathLimit ≤ p.bytes.length
      · simp [hnul, hempty, hlong, Nat.not_lt.mpr hlong]
      · simp [hnul, hempty, hlong, Nat.lt_of_not_le hlong]

theorem isDirectory_iff {p : Path} :
    fs.isDirectory p = true ↔ ∃ q, fs.locate true p = .ok (q, some .directory) := by
  unfold isDirectory
  split
  · rename_i q hq
    simp [hq]
  · rename_i hnot
    simpa using hnot

theorem pathExists_iff {p : Path} :
    fs.pathExists p = true ↔ ∃ q e, fs.locate true p = .ok (q, some e) := by
  unfold pathExists
  split
  · rename_i q e hq
    simp [hq]
  · rename_i hnot
    simpa using hnot

/-! ### What stays where it is -/

/-- The directories and links of `fs` are in `fs'` too, and so is the working directory. -/
structure Keeps (fs fs' : FileSystem) : Prop where
  working : fs'.working = fs.working
  entry : ∀ q e, fs.entry? q = some e → (∀ content, e ≠ .file content) → fs'.entry? q = some e

theorem Keeps.refl (fs : FileSystem) : fs.Keeps fs := ⟨rfl, fun _ _ h _ => h⟩

theorem Keeps.trans {fs'' : FileSystem} (h : fs.Keeps fs') (h' : fs'.Keeps fs'') :
    fs.Keeps fs'' where
  working := h'.working.trans h.working
  entry q e hq he := h'.entry q e (h.entry q e hq he) he

/-- A directory stays where its path leads. -/
theorem isDirectory_of_keeps (h : fs.Keeps fs') {p : Path} (hp : fs.isDirectory p = true) :
    fs'.isDirectory p = true := by
  obtain ⟨q, hq⟩ := isDirectory_iff.mp hp
  obtain ⟨husable, hfollow⟩ := locate_eq_ok_iff.mp hq
  have hstart : fs'.start p = fs.start p := by rw [start, start, h.working]
  refine isDirectory_iff.mpr ⟨q, locate_eq_ok_iff.mpr ⟨husable, ?_⟩⟩
  rw [hstart, ← hfollow]
  refine follow_congr fun r hr => ?_
  obtain ⟨e, hentry, he⟩ := entry?_of_mem_lookups hfollow hr
  rw [hentry, h.entry r e hentry he]

theorem keeps_put {e : Entry} (hplace : place ≠ [])
    (hfound : fs.entry? place = none ∨ ∃ content, fs.entry? place = some (.file content)) :
    fs.Keeps (fs.put place e) where
  working := by
    unfold put
    split <;> rfl
  entry q x hq hx := by
    rw [entry?_put fs place q e hplace, if_neg, hq]
    rintro rfl
    rcases hfound with hnone | ⟨content, hfile⟩
    · rw [hnone] at hq
      cases hq
    · exact hx content (Option.some.inj (hq.symm.trans hfile))

theorem keeps_of_makeDirectory {p : Path} (h : fs.makeDirectory p = .ok fs') : fs.Keeps fs' := by
  unfold makeDirectory at h
  cases hlocate : fs.locate false (withoutSlashes p) with
  | error e =>
    rw [hlocate] at h
    cases h
  | ok there =>
    obtain ⟨q, found⟩ := there
    cases found with
    | some e =>
      rw [hlocate] at h
      cases h
    | none =>
      rw [hlocate] at h
      obtain rfl := Except.ok.inj h
      have hnone := entry?_of_follow (locate_eq_ok_iff.mp hlocate).2
      refine keeps_put ?_ (Or.inl hnone)
      rintro rfl
      cases hnone

/-- Making directories only adds some. -/
theorem keeps_of_makeDirectories {fuel : Nat} {p : Path}
    (h : fs.makeDirectories fuel p = .ok fs') : fs.Keeps fs' := by
  induction fuel generalizing p fs' with
  | zero => cases h
  | succ fuel ih =>
    rw [makeDirectories] at h
    split at h
    · exact Except.ok.inj h ▸ Keeps.refl fs
    · split at h
      · rename_i made hmade
        exact Except.ok.inj h ▸ keeps_of_makeDirectory hmade
      · split at h
        · cases h
        · rename_i q _
          cases habove : fs.makeDirectories fuel q with
          | error e =>
            rw [habove] at h
            cases h
          | ok above =>
            have hkeeps := ih habove
            simp only [habove, bind, Except.bind] at h
            split at h
            · rename_i made hmade
              exact hkeeps.trans (Except.ok.inj h ▸ keeps_of_makeDirectory hmade)
            · split at h
              · exact Except.ok.inj h ▸ hkeeps
              · cases h
      · split at h
        · exact Except.ok.inj h ▸ Keeps.refl fs
        · cases h

theorem keeps_of_ensureDirectory {p : Path} (h : fs.ensureDirectory p = .ok fs') : fs.Keeps fs' :=
  keeps_of_makeDirectories h

/-- A file is written over nothing or over a file. -/
theorem keeps_of_writeText {p : Path} {s : String} (h : fs.writeText p s = .ok fs') :
    fs.Keeps fs' := by
  obtain ⟨q, found, hlocate, hfound, rfl⟩ := writeBytes_eq_ok h
  have hentry := entry?_of_follow (locate_eq_ok_iff.mp hlocate).2
  refine keeps_put ?_ ?_
  · rintro rfl
    rcases hfound with rfl | ⟨old, rfl⟩ <;> cases hentry
  · rcases hfound with rfl | ⟨old, rfl⟩
    · exact Or.inl hentry
    · exact Or.inr ⟨old, hentry⟩

end FileSystem

end Triage.Files
