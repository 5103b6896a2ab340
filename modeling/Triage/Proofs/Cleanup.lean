import Triage.Proofs.Effects
import Triage.Proofs.Files.Removal
import Triage.Proofs.Planning

/-!
# The directory of a checkout

A run takes nothing away but the directory that it clones into: what was in the way of the clone,
and the clone itself when it is not to stay. Whatever ends the run, the clone goes with it.
-/

namespace Triage

open Files FileSystem Service

variable {σ : Type} {around : Surroundings σ}

/-- An effect on the directory of a checkout. -/
def Effect.isOfCheckout : Effect → Bool
  | removeDirectory _ | clone _ _ => true
  | _ => false

def Effect.isPrint : Effect → Bool
  | print _ => true
  | _ => false

theorem not_isOfCheckout_of_isWork {e : Effect} (h : e.isWork = true) : e.isOfCheckout = false := by
  cases e <;> first | rfl | cases h

theorem not_isOfCheckout_of_isPrint {e : Effect} (h : e.isPrint = true) :
    e.isOfCheckout = false := by
  cases e <;> first | rfl | cases h

/-! ### Both commands -/

/-- The settings of a command that is about to begin, the directory they came from, and its
source; none when something stands against it. -/
def beginning? (around : Surroundings σ) (fs : FileSystem) (i : Invocation) :
    Option (Settings × Option Path × Source) :=
  match i.command with
  | .scan => (planScan around fs i).toOption.map fun p => (p.settings, p.place, p.source)
  | .structureReport => (planStructure fs i).toOption.map fun p => (p.settings, p.place, p.source)
  | .init _ => none

theorem map_toOption_eq_some_iff {ε α β : Type} {x : Except ε α} {f : α → β} {b : β} :
    x.toOption.map f = some b ↔ ∃ a, x = .ok a ∧ f a = b := by
  cases x <;> simp [Except.toOption]

theorem map_toOption_eq_none_iff {ε α β : Type} {x : Except ε α} {f : α → β} :
    x.toOption.map f = none ↔ ∃ e, x = .error e := by
  cases x <;> simp [Except.toOption]

theorem beginning?_eq_some {fs : FileSystem} {i : Invocation} {s : Settings}
    {place : Option Path} {source : Source}
    (h : beginning? around fs i = some (s, place, source)) :
    (i.command = .scan ∧ ∃ backend, planScan around fs i = .ok ⟨s, place, source, backend⟩) ∨
      (i.command = .structureReport ∧ planStructure fs i = .ok ⟨s, place, source⟩) := by
  unfold beginning? at h
  split at h
  · rename_i hscan
    obtain ⟨⟨s, place, source, backend⟩, hp, heq⟩ := map_toOption_eq_some_iff.mp h
    cases heq
    exact Or.inl ⟨hscan, backend, hp⟩
  · rename_i hstructure
    obtain ⟨⟨s, place, source⟩, hp, heq⟩ := map_toOption_eq_some_iff.mp h
    cases heq
    exact Or.inr ⟨hstructure, hp⟩
  · cases h

/-- A run that got its checkout in `w`: work is done, the checkout is released, and after that
something may be printed. -/
def EndsWith (around : Surroundings σ) (c : Checkout) (w : World σ) (final : Ending × World σ) :
    Prop :=
  ∃ w' printed, Works w w' ∧ final.2.files = (c.release around w').files ∧
    final.2.effects = (c.release around w').effects ++ printed ∧ ∀ e ∈ printed, e.isPrint = true

/-- What a command does with its source. -/
structure Uses (around : Surroundings σ) (source : Source) (begun : World σ)
    (final : Ending × World σ) : Prop where
  failed : ∀ e w, Checkout.ofSource around source begun = (.error e, w) →
    final = (.failed e.message, w)
  ended : ∀ c w, Checkout.ofSource around source begun = (.ok c, w) → EndsWith around c w final

theorem endsWith_endingOf {c : Checkout} {w w' : World σ}
    {r : Option (Except PipelineError Assessment)} (hworks : Works w w') :
    EndsWith around c w (endingOf r (c.release around w')) := by
  rcases r with _ | e | a
  · exact ⟨w', [], hworks, rfl, (List.append_nil _).symm, List.forall_mem_nil _⟩
  · exact ⟨w', [], hworks, rfl, (List.append_nil _).symm, List.forall_mem_nil _⟩
  · exact ⟨w', [.print a.text], hworks, rfl, rfl, List.forall_mem_singleton.mpr rfl⟩

theorem uses_runScanPlan {fs : FileSystem} {i : Invocation} {p : ScanPlan σ}
    (hp : planScan around fs i = .ok p) (day : String) (w : World σ) :
    Uses around p.source (startLog p.settings p.place day w) (runScanPlan around day p w) := by
  obtain ⟨-, -, -, key, -, hbackend⟩ := planScan_eq_ok_iff.mp hp
  unfold runScanPlan
  constructor
  · intro e w' hfailed
    rw [hfailed]
  · intro c w' hdone
    rw [hdone]
    exact endsWith_endingOf (Pipeline.works_runScan hbackend c.path p.settings w' []).2

theorem uses_runStructurePlan (p : StructurePlan) (day : String) (w : World σ) :
    Uses around p.source (startLog p.settings p.place day w)
      (runStructurePlan around day p w) := by
  unfold runStructurePlan
  constructor
  · intro e w' hfailed
    rw [hfailed]
  · intro c w' hdone
    rw [hdone]
    dsimp only
    split
    · exact ⟨w', [], .refl w', rfl, (List.append_nil _).symm, List.forall_mem_nil _⟩
    · rename_i report _
      exact ⟨w', [.print report.promptText], .refl w', rfl, rfl,
        List.forall_mem_singleton.mpr rfl⟩

theorem uses_run {i : Invocation} {s : Settings} {place : Option Path} {source : Source}
    (w : World σ) (h : beginning? around w.files i = some (s, place, source)) (day : String) :
    Uses around source (startLog s place day w) (run around day i w) := by
  unfold run
  rcases beginning?_eq_some h with ⟨hscan, backend, hp⟩ | ⟨hstructure, hp⟩
  · rw [hscan, hp]
    exact uses_runScanPlan hp day w
  · rw [hstructure, hp]
    exact uses_runStructurePlan ⟨s, place, source⟩ day w

/-! ### Local directories -/

theorem Uses.of_directory {path : Path} {begun : World σ} {final : Ending × World σ}
    (h : Uses around (.directory path) begun final) :
    begun.files.Keeps final.2.files ∧
      ∃ es, final.2.effects = begun.effects ++ es ∧ ∀ e ∈ es, e.isOfCheckout = false := by
  by_cases hthere : begun.files.isDirectory path = true
  · have hsource : Checkout.ofSource around (.directory path) begun =
        (.ok ⟨path, false⟩, begun) := by
      rw [Checkout.ofSource, Checkout.ofDirectory, if_pos hthere]
    obtain ⟨w', printed, hworks, hfiles, heffects, hprinted⟩ := h.ended _ _ hsource
    obtain ⟨es, hes, hwork⟩ := hworks.effects
    refine ⟨hfiles ▸ hworks.keeps, es ++ printed, ?_, ?_⟩
    · rw [heffects, ← List.append_assoc, ← hes]
      rfl
    · intro e he
      exact (List.mem_append.mp he).elim (fun he => not_isOfCheckout_of_isWork (hwork e he))
        fun he => not_isOfCheckout_of_isPrint (hprinted e he)
  · have hsource : Checkout.ofSource around (.directory path) begun =
        (.error (.noDirectory path), begun) := by
      rw [Checkout.ofSource, Checkout.ofDirectory, if_neg hthere]
    rw [h.failed _ _ hsource]
    exact ⟨.refl _, [], (List.append_nil _).symm, List.forall_mem_nil _⟩

/-! ### Clones -/

/-- What is in the way of a clone goes first, if it can. -/
def Checkout.cleared (around : Surroundings σ) (path : Path) (w : World σ) :
    Except IoError Unit × World σ :=
  if w.files.pathExists path then w.remove around path else (.ok (), w)

theorem Checkout.prepare_eq (url : String) (path : Path) (w : World σ) :
    Checkout.prepare around url path w =
      match Checkout.cleared around path w with
      | (.ok _, w) => Checkout.clone around url path w
      | (.error _, w) => (.error (.notRemoved path), w) := by
  unfold Checkout.prepare Checkout.cleared
  split <;> rfl

/-- How the directory of a clone ends: it stays, or it is not there when the run is about to end,
or it is removed. The first list are the removals that this takes. -/
inductive CloneEnd (around : Surroundings σ) (path : Path) (stays : Bool) (cloned : FileSystem) :
    List Effect → FileSystem → Prop
  | kept {files} (wanted : stays = true) (keeps : cloned.Keeps files)
      (there : cloned.isDirectory path = true → files.isDirectory path = true) :
      CloneEnd around path stays cloned [] files
  | absent {files} (unwanted : stays = false) (gone : files.pathExists path = false) :
      CloneEnd around path stays cloned [] files
  | removed {before files r} (unwanted : stays = false) (there : before.pathExists path = true)
      (removed : around.remove path before = (r, files))
      (gone : r = .ok () → files.pathExists path = false) :
      CloneEnd around path stays cloned [.removeDirectory path] files

/-- The life of a clone in a run: it is started in the world `found`, work is done with it, and it
ends before anything is printed. -/
structure CloneLife (around : Surroundings σ) (url : String) (path : Path) (keep : Bool)
    (found : World σ) (final : Ending × World σ) : Prop where
  effects : ∃ work last printed,
    final.2.effects = found.effects ++ .clone url path :: (work ++ last ++ printed) ∧
    (∀ e ∈ work, e.isWork = true) ∧ (∀ e ∈ printed, e.isPrint = true) ∧
    CloneEnd around path ((around.clone url path found.files).1 && keep)
      (around.clone url path found.files).2 last final.2.files
  failed : (around.clone url path found.files).1 = false →
    final.1 = .failed (CheckoutError.notCloned url).message

/-- A checkout that is to go is not there after its release, unless it cannot be removed. -/
theorem cloneEnd_release (hremove : IsRemoval around.remove) (path : Path) (cloned : FileSystem)
    (w : World σ) :
    ∃ last, ((⟨path, true⟩ : Checkout).release around w).effects = w.effects ++ last ∧
      CloneEnd around path false cloned last ((⟨path, true⟩ : Checkout).release around w).files := by
  by_cases hexists : w.files.pathExists path = true
  · refine ⟨[.removeDirectory path], ?_, ?_⟩
    · rw [Checkout.release, hexists]
      rfl
    · rw [Checkout.release, hexists]
      exact .removed rfl hexists rfl fun hok => hremove.pathExists_of_ok hok
  · rw [Checkout.release, if_neg (by simpa using hexists)]
    exact ⟨[], (List.append_nil _).symm, .absent rfl (Bool.eq_false_iff.mpr hexists)⟩

/-- The checkout of a repository once its place is clear. -/
theorem ofSource_of_cleared (url : String) {path : Path} (keep : Bool) {begun found : World σ}
    (hcleared : Checkout.cleared around path begun = (.ok (), found)) :
    Checkout.ofSource around (.remote url path keep) begun =
      if (around.clone url path found.files).1 then
        (.ok ⟨path, !keep⟩, (found.clone around url path).2)
      else (.error (.notCloned url),
        (⟨path, true⟩ : Checkout).release around (found.clone around url path).2) := by
  have hworld : found.clone around url path =
      ((around.clone url path found.files).1, (found.clone around url path).2) := rfl
  simp only [Checkout.ofSource, Checkout.prepare_eq, hcleared, Checkout.clone]
  rw [hworld]
  cases (around.clone url path found.files).1 <;> cases keep <;> rfl

theorem Uses.of_remote (hremove : IsRemoval around.remove) {url : String} {path : Path}
    {keep : Bool} {begun found : World σ} {final : Ending × World σ}
    (h : Uses around (.remote url path keep) begun final)
    (hcleared : Checkout.cleared around path begun = (.ok (), found)) :
    CloneLife around url path keep found final := by
  have hsource := ofSource_of_cleared url keep hcleared
  have hnoted : (found.clone around url path).2.effects =
      found.effects ++ [.clone url path] := rfl
  cases hclone : (around.clone url path found.files).1 with
  | false =>
    rw [hclone, if_neg Bool.false_ne_true] at hsource
    have hfinal := h.failed _ _ hsource
    obtain ⟨last, heffects, hend⟩ := cloneEnd_release hremove path
      (around.clone url path found.files).2 (found.clone around url path).2
    refine ⟨⟨[], last, [], ?_, List.forall_mem_nil _, List.forall_mem_nil _, ?_⟩, ?_⟩
    · rw [hfinal, heffects, hnoted]
      simp
    · rw [hfinal, hclone, Bool.false_and]
      exact hend
    · intro _
      rw [hfinal]
  | true =>
    rw [hclone, if_pos rfl] at hsource
    obtain ⟨w', printed, hworks, hfiles, heffects, hprinted⟩ := h.ended _ _ hsource
    obtain ⟨work, hwork, hall⟩ := hworks.effects
    refine ⟨?_, fun hfailed => nomatch hclone.symm.trans hfailed⟩
    cases keep with
    | true =>
      have hkept : (⟨path, false⟩ : Checkout).release around w' = w' := rfl
      refine ⟨work, [], printed, ?_, hall, hprinted, ?_⟩
      · rw [heffects, Bool.not_true, hkept, hwork, hnoted]
        simp
      · rw [hclone, hfiles, Bool.not_true, hkept]
        exact .kept rfl hworks.keeps (isDirectory_of_keeps hworks.keeps)
    | false =>
      obtain ⟨last, hlast, hend⟩ := cloneEnd_release hremove path
        (around.clone url path found.files).2 w'
      refine ⟨work, last, printed, ?_, hall, hprinted, ?_⟩
      · rw [heffects, Bool.not_false, hlast, hwork, hnoted]
        simp
      · rw [hclone, hfiles, Bool.not_false]
        exact hend

/-! ### Runs -/

theorem source_of_beginning {fs : FileSystem} {i : Invocation} {s : Settings}
    {place : Option Path} {source : Source}
    (h : beginning? around fs i = some (s, place, source)) : i.source.source s = .ok source := by
  rcases beginning?_eq_some h with ⟨-, backend, hp⟩ | ⟨-, hp⟩
  · exact (planScan_eq_ok_iff.mp hp).2.2.1
  · exact (planStructure_eq_ok_iff.mp hp).2.2

theorem run_of_no_beginning {i : Invocation} (w : World σ)
    (hcommand : i.command = .scan ∨ i.command = .structureReport)
    (h : beginning? around w.files i = none) (day : String) :
    ∃ message, run around day i w = (.failed message, w) := by
  unfold beginning? at h
  unfold run
  rcases hcommand with hcommand | hcommand
  · rw [hcommand] at h ⊢
    obtain ⟨message, hfailed⟩ := map_toOption_eq_none_iff.mp h
    exact ⟨message, by rw [hfailed]⟩
  · rw [hcommand] at h ⊢
    obtain ⟨message, hfailed⟩ := map_toOption_eq_none_iff.mp h
    exact ⟨message, by rw [hfailed]⟩

theorem cleared_effects (around : Surroundings σ) (path : Path) (w : World σ) :
    (Checkout.cleared around path w).2.effects = w.effects ∨
      (Checkout.cleared around path w).2.effects = w.effects ++ [.removeDirectory path] := by
  unfold Checkout.cleared
  split
  · exact Or.inr rfl
  · exact Or.inl rfl

/-- A place that cannot be cleared ends the checkout, after the one removal that was tried. -/
theorem ofSource_of_not_cleared (url : String) {path : Path} (keep : Bool) {w found : World σ}
    {e : IoError} (hcleared : Checkout.cleared around path w = (.error e, found)) :
    Checkout.ofSource around (.remote url path keep) w = (.error (.notRemoved path), found) ∧
      found.effects = w.effects ++ [.removeDirectory path] := by
  constructor
  · rw [Checkout.ofSource, Checkout.prepare_eq, hcleared]
    cases keep <;> rfl
  · unfold Checkout.cleared at hcleared
    split at hcleared
    · exact congrArg (·.2.effects) hcleared.symm
    · cases hcleared

/-- A run on a directory leaves every directory where it was. -/
theorem run_of_directory {i : Invocation} {s : Settings} {place : Option Path} {path : Path}
    (w : World σ) (hnone : w.effects = [])
    (h : beginning? around w.files i = some (s, place, .directory path)) (day : String) :
    i.source.localPath = some path ∧ w.files.Keeps (run around day i w).2.files ∧
      ∀ e ∈ (run around day i w).2.effects, e.isOfCheckout = false := by
  have hbegun := works_startLog s place day w
  obtain ⟨hkeeps, es, heffects, hes⟩ := (uses_run w h day).of_directory
  refine ⟨?_, hbegun.keeps.trans hkeeps, ?_⟩
  · rcases source_eq_ok_iff.mp (source_of_beginning h) with ⟨there, hthere, heq⟩ | ⟨_, -, -, heq⟩
    · rw [hthere, Source.directory.inj heq]
    · cases heq
  · intro e he
    rw [heffects] at he
    rcases List.mem_append.mp he with he | he
    · exact not_isOfCheckout_of_isWork (hbegun.isWork_of_mem hnone he)
    · exact hes e he

/-- The repository of a run, and where its clone goes. -/
theorem remote_of_beginning {fs : FileSystem} {i : Invocation} {s : Settings}
    {place : Option Path} {url : String} {path : Path} {keep : Bool}
    (h : beginning? around fs i = some (s, place, .remote url path keep)) :
    i.source.localPath = none ∧ i.source.resolvedUrl? s = some url ∧
      path = i.source.resolvedPath s ∧ keep = i.source.keep := by
  rcases source_eq_ok_iff.mp (source_of_beginning h) with ⟨_, -, heq⟩ | ⟨_, hnone, hurl, heq⟩
  · cases heq
  · obtain ⟨rfl, hpath, hkeep⟩ := Source.remote.inj heq
    exact ⟨hnone, hurl, hpath, hkeep⟩

/-- A command that something stands against does nothing. With a local directory nothing is
removed or cloned, and all directories stay. With a repository, only the directory that it is
cloned into is ever removed: what is in the way of the clone, which ends the run when it cannot be
removed, and then the clone itself, unless it is to stay. -/
theorem run_checkout (around : Surroundings σ) (hremove : IsRemoval around.remove) (day : String)
    (i : Invocation) (fs : FileSystem) (outside : σ)
    (hcommand : i.command = .scan ∨ i.command = .structureReport) :
    let start : World σ := ⟨fs, outside, []⟩
    let final := run around day i start
    match beginning? around fs i with
    | none => ∃ message, final = (.failed message, start)
    | some (_, _, .directory path) =>
      i.source.localPath = some path ∧ fs.Keeps final.2.files ∧
        ∀ e ∈ final.2.effects, e.isOfCheckout = false
    | some (s, place, .remote url path keep) =>
      let begun := startLog s place day start
      i.source.localPath = none ∧ path = i.source.resolvedPath s ∧ keep = i.source.keep ∧
        (∀ e ∈ begun.effects, e.isWork = true) ∧
        match Checkout.cleared around path begun with
        | (.error _, found) =>
          final = (.failed (CheckoutError.notRemoved path).message, found) ∧
            found.effects = begun.effects ++ [.removeDirectory path]
        | (.ok _, found) =>
          (found.effects = begun.effects ∨
            found.effects = begun.effects ++ [.removeDirectory path]) ∧
          CloneLife around url path keep found final := by
  intro start final
  have hnone : start.effects = [] := rfl
  split
  · rename_i hbegins
    exact run_of_no_beginning start hcommand hbegins day
  · rename_i hbegins
    exact run_of_directory start hnone hbegins day
  · rename_i s place url path keep hbegins
    intro begun
    have huses : Uses around (.remote url path keep) begun final :=
      uses_run start hbegins day
    obtain ⟨hdirectory, -, hpath, hkeep⟩ := remote_of_beginning hbegins
    refine ⟨hdirectory, hpath, hkeep, ?_, ?_⟩
    · intro e he
      exact (works_startLog s place day start).isWork_of_mem hnone he
    · split
      · rename_i e found hcleared
        obtain ⟨hfailed, heffects⟩ := ofSource_of_not_cleared url keep hcleared
        exact ⟨huses.failed _ _ hfailed, heffects⟩
      · rename_i found hcleared
        refine ⟨?_, huses.of_remote hremove hcleared⟩
        have hfound := cleared_effects around path begun
        rwa [hcleared] at hfound

/-- A structure report takes away what is in the way of its clone, and its clone. -/
theorem run_checkout_keyless :
    IsRemoval quietSurroundings.remove ∧
    ∃ found, found.effects.contains (.removeDirectory (.ofString "./cloned_repo")) = true ∧
      CloneLife quietSurroundings "https://example.com/r.git" (.ofString "./cloned_repo") false
        found (run quietSurroundings "" (keylessInvocation .structureReport)
          ⟨configuredFiles, (), []⟩) := by
  have hbegins : beginning? quietSurroundings configuredFiles
      (keylessInvocation .structureReport) =
        some (configuredSettings, some (.ofString ".vigil"),
          .remote "https://example.com/r.git" (.ofString "./cloned_repo") false) := by
    rw [beginning?]
    exact map_toOption_eq_some_iff.mpr ⟨_, planStructure_keyless, rfl⟩
  have hok : (Checkout.cleared quietSurroundings (.ofString "./cloned_repo")
      (startLog configuredSettings (some (.ofString ".vigil")) ""
        ⟨configuredFiles, (), []⟩)).1.isOk = true := by
    cbv
  have hremoved : (Checkout.cleared quietSurroundings (.ofString "./cloned_repo")
      (startLog configuredSettings (some (.ofString ".vigil")) ""
        ⟨configuredFiles, (), []⟩)).2.effects.contains
          (.removeDirectory (.ofString "./cloned_repo")) = true := by
    cbv
  have hremoval : IsRemoval quietSurroundings.remove := isRemoval_removeTree
  have h := run_checkout quietSurroundings hremoval "" (keylessInvocation .structureReport)
    configuredFiles () (Or.inr rfl)
  simp only [hbegins] at h
  obtain ⟨-, -, -, -, h⟩ := h
  split at h
  · rename_i e found hfailed
    rw [hfailed] at hok
    cases hok
  · rename_i found hfound
    rw [hfound] at hremoved
    exact ⟨hremoval, found, hremoved, h.2⟩

end Triage
