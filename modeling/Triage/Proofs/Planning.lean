import Mathlib
import Triage.Command
import Triage.Proofs.Files.ReadBack

/-!
# What has to be in order before a command begins

The settings, the source, the key and the client are all looked at before anything is done. A
command that something stands against ends with an error, in the world in which it was called; any
other begins with exactly what was found.
-/

namespace Triage

open Files Service

variable {σ : Type}

/-- What stands against a command: a configuration that cannot be read or that says something
wrong, no repository, and for a scan no key or no backend. -/
inductive Hindered (around : Surroundings σ) (fs : FileSystem) (i : Invocation) : Prop
  | unreadable {e : ConfigError} (located : Settings.locate fs i.config = .error e)
  | faulty {s : Settings} {place : Option Path}
      (located : Settings.locate fs i.config = .ok (s, place)) (faults : s.faults ≠ [])
  | noSource {s : Settings} {place : Option Path}
      (located : Settings.locate fs i.config = .ok (s, place))
      (noDirectory : i.source.localPath = none) (noUrl : i.source.resolvedUrl? s = none)
  | noKey {s : Settings} {place : Option Path} (scans : i.command = .scan)
      (located : Settings.locate fs i.config = .ok (s, place))
      (noKey : i.source.resolvedKey? s = none)
  | noBackend {s : Settings} {place : Option Path} {key : String} {f : Failure}
      (scans : i.command = .scan) (located : Settings.locate fs i.config = .ok (s, place))
      (resolved : i.source.resolvedKey? s = some key)
      (failed : serviceBackend around (s.serviceSettings key) = .error f)

/-! ### Settings and sources -/

theorem settingsFor_eq_ok_iff {fs : FileSystem} {named place : Option Path} {s : Settings} :
    settingsFor fs named = .ok (s, place) ↔
      Settings.locate fs named = .ok (s, place) ∧ s.faults = [] := by
  unfold settingsFor
  rcases Settings.locate fs named with e | ⟨t, place'⟩
  · simp
  · cases hfaults : t.faults with
    | nil => grind
    | cons f fs => grind

theorem source_eq_ok_iff {a : SourceArguments} {s : Settings} {source : Source} :
    a.source s = .ok source ↔
      (∃ path, a.localPath = some path ∧ source = .directory path) ∨
      ∃ url, a.localPath = none ∧ a.resolvedUrl? s = some url ∧
        source = .remote url (a.resolvedPath s) a.keep := by
  unfold SourceArguments.source
  cases a.localPath with
  | some path => simp [eq_comm]
  | none =>
    cases a.resolvedUrl? s with
    | some url => simp [eq_comm]
    | none => simp

theorem source_eq_error_iff {a : SourceArguments} {s : Settings} :
    (∃ e, a.source s = .error e) ↔ a.localPath = none ∧ a.resolvedUrl? s = none := by
  unfold SourceArguments.source
  cases a.localPath with
  | some path => simp
  | none => cases a.resolvedUrl? s <;> simp

/-! ### Plans -/

theorem bind_eq_ok_iff {ε α β : Type} {x : Except ε α} {f : α → Except ε β} {b : β} :
    (x >>= f) = .ok b ↔ ∃ a, x = .ok a ∧ f a = .ok b := by
  cases x with
  | error e => simp [bind, Except.bind]
  | ok a => simp [bind, Except.bind]

theorem mapError_eq_ok_iff {ε ε' α : Type} {x : Except ε α} {f : ε → ε'} {a : α} :
    x.mapError f = .ok a ↔ x = .ok a := by
  cases x <;> simp [Except.mapError]

theorem resolve_eq_ok_iff {a : SourceArguments} {s : Settings} {source : Source} {key : String} :
    a.resolve s = .ok (source, key) ↔ a.source s = .ok source ∧ a.resolvedKey? s = some key := by
  unfold SourceArguments.resolve
  rw [bind_eq_ok_iff]
  cases a.resolvedKey? s <;> grind

theorem planStructure_eq_ok_iff {fs : FileSystem} {i : Invocation} {p : StructurePlan} :
    planStructure fs i = .ok p ↔
      Settings.locate fs i.config = .ok (p.settings, p.place) ∧ p.settings.faults = [] ∧
        i.source.source p.settings = .ok p.source := by
  rw [← and_assoc, ← settingsFor_eq_ok_iff, planStructure]
  simp only [bind_eq_ok_iff, mapError_eq_ok_iff, pure, Except.pure, Except.ok.injEq, Prod.exists]
  constructor
  · rintro ⟨s, place, hs, source, hsource, rfl⟩
    exact ⟨hs, hsource⟩
  · rintro ⟨hs, hsource⟩
    exact ⟨p.settings, p.place, hs, p.source, hsource, rfl⟩

theorem planScan_eq_ok_iff {around : Surroundings σ} {fs : FileSystem} {i : Invocation}
    {p : ScanPlan σ} :
    planScan around fs i = .ok p ↔
      Settings.locate fs i.config = .ok (p.settings, p.place) ∧ p.settings.faults = [] ∧
        i.source.source p.settings = .ok p.source ∧
        ∃ key, i.source.resolvedKey? p.settings = some key ∧
          serviceBackend around (p.settings.serviceSettings key) = .ok p.backend := by
  rw [← and_assoc, ← settingsFor_eq_ok_iff, planScan]
  simp only [bind_eq_ok_iff, mapError_eq_ok_iff, resolve_eq_ok_iff, pure, Except.pure,
    Except.ok.injEq, Prod.exists]
  constructor
  · rintro ⟨s, place, hs, source, key, ⟨hsource, hkey⟩, backend, hbackend, rfl⟩
    exact ⟨hs, hsource, key, hkey, hbackend⟩
  · rintro ⟨hs, hsource, key, hkey, hbackend⟩
    exact ⟨p.settings, p.place, hs, p.source, key, ⟨hsource, hkey⟩, p.backend, hbackend, rfl⟩

/-! ### Hindrances -/

/-- A command that nothing stands against has settings without faults, and a source. -/
theorem exists_source_of_not_hindered {around : Surroundings σ} {fs : FileSystem} {i : Invocation}
    (h : ¬ Hindered around fs i) :
    ∃ s place source, Settings.locate fs i.config = .ok (s, place) ∧ s.faults = [] ∧
      i.source.source s = .ok source := by
  rcases hlocated : Settings.locate fs i.config with e | ⟨s, place⟩
  · exact absurd (.unreadable hlocated) h
  · have hfaults : s.faults = [] :=
      Classical.byContradiction fun hfaults => h (.faulty hlocated hfaults)
    cases hsource : i.source.source s with
    | error e =>
      obtain ⟨hdirectory, hurl⟩ := source_eq_error_iff.mp ⟨e, hsource⟩
      exact absurd (.noSource hlocated hdirectory hurl) h
    | ok source => exact ⟨s, place, source, rfl, hfaults, hsource⟩

/-- Nothing that stands against a command lets it have a source and settings without faults. -/
theorem scans_of_hindered {around : Surroundings σ} {fs : FileSystem} {i : Invocation}
    {s : Settings} {place : Option Path} {source : Source} (h : Hindered around fs i)
    (hlocated : Settings.locate fs i.config = .ok (s, place)) (hfaults : s.faults = [])
    (hsource : i.source.source s = .ok source) :
    i.command = .scan ∧ ∀ key, i.source.resolvedKey? s = some key →
      ∃ f, serviceBackend around (s.serviceSettings key) = .error f := by
  have hsame : ∀ {t : Settings} {place' : Option Path},
      Settings.locate fs i.config = .ok (t, place') → t = s := by
    intro t place' h'
    exact (Prod.mk.inj (Except.ok.inj (h'.symm.trans hlocated))).1
  cases h with
  | unreadable h' => cases h'.symm.trans hlocated
  | faulty h' hfaulty => exact absurd (hsame h' ▸ hfaults) hfaulty
  | noSource h' hdirectory hurl =>
    obtain ⟨e, he⟩ := source_eq_error_iff.mpr ⟨hdirectory, hurl⟩
    cases he.symm.trans (hsame h' ▸ hsource)
  | noKey hscan h' hkey =>
    refine ⟨hscan, fun key hthere => ?_⟩
    cases hthere.symm.trans (hsame h' ▸ hkey)
  | @noBackend t place' key f hscan h' hkey hfailed =>
    obtain rfl := hsame h'
    refine ⟨hscan, fun key' hthere => ⟨f, ?_⟩⟩
    rw [Option.some.inj (hthere.symm.trans hkey)]
    exact hfailed

theorem exists_planStructure_iff (around : Surroundings σ) {fs : FileSystem} {i : Invocation}
    (hcommand : i.command = .structureReport) :
    (∃ p, planStructure fs i = .ok p) ↔ ¬ Hindered around fs i := by
  constructor
  · rintro ⟨p, hp⟩ h
    obtain ⟨hlocated, hfaults, hsource⟩ := planStructure_eq_ok_iff.mp hp
    cases hcommand.symm.trans (scans_of_hindered h hlocated hfaults hsource).1
  · intro h
    obtain ⟨s, place, source, hfound⟩ := exists_source_of_not_hindered h
    exact ⟨⟨s, place, source⟩, planStructure_eq_ok_iff.mpr hfound⟩

theorem exists_planScan_iff {around : Surroundings σ} {fs : FileSystem} {i : Invocation}
    (hcommand : i.command = .scan) :
    (∃ p, planScan around fs i = .ok p) ↔ ¬ Hindered around fs i := by
  constructor
  · rintro ⟨p, hp⟩ h
    obtain ⟨hlocated, hfaults, hsource, key, hkey, hbackend⟩ := planScan_eq_ok_iff.mp hp
    obtain ⟨f, hf⟩ := (scans_of_hindered h hlocated hfaults hsource).2 key hkey
    cases hf.symm.trans hbackend
  · intro h
    obtain ⟨s, place, source, hlocated, hfaults, hsource⟩ := exists_source_of_not_hindered h
    cases hkey : i.source.resolvedKey? s with
    | none => exact absurd (.noKey hcommand hlocated hkey) h
    | some key =>
      cases hbackend : serviceBackend around (s.serviceSettings key) with
      | error f => exact absurd (.noBackend hcommand hlocated hkey hbackend) h
      | ok backend =>
        exact ⟨⟨s, place, source, backend⟩,
          planScan_eq_ok_iff.mpr ⟨hlocated, hfaults, hsource, key, hkey, hbackend⟩⟩

/-! ### Runs -/

/-- A scan or a structure report that something stands against fails and leaves the world as it
was: nothing is made, written, removed, cloned, sent or printed. Whatever does something has passed
every check before, and goes on with the settings, the source and the backend that were found. -/
theorem run_hindered_or_begun (around : Surroundings σ) (day : String) (i : Invocation)
    (w : World σ) (hcommand : i.command = .scan ∨ i.command = .structureReport) :
    (Hindered around w.files i → ∃ message, run around day i w = (.failed message, w)) ∧
    ((run around day i w).2.effects ≠ w.effects → ¬ Hindered around w.files i) ∧
    (¬ Hindered around w.files i →
      ∃ s place source, Settings.locate w.files i.config = .ok (s, place) ∧ s.faults = [] ∧
        i.source.source s = .ok source ∧
        (i.command = .scan → ∃ key backend, i.source.resolvedKey? s = some key ∧
          serviceBackend around (s.serviceSettings key) = .ok backend ∧
          run around day i w = runScanPlan around day ⟨s, place, source, backend⟩ w) ∧
        (i.command = .structureReport →
          run around day i w = runStructurePlan around day ⟨s, place, source⟩ w)) := by
  have hfails : Hindered around w.files i → ∃ message, run around day i w = (.failed message, w) := by
    intro h
    unfold run
    rcases hcommand with hscan | hstructure
    · rw [hscan]
      cases hplan : planScan around w.files i with
      | error message => exact ⟨message, rfl⟩
      | ok p => exact absurd h ((exists_planScan_iff hscan).mp ⟨p, hplan⟩)
    · rw [hstructure]
      cases hplan : planStructure w.files i with
      | error message => exact ⟨message, rfl⟩
      | ok p => exact absurd h ((exists_planStructure_iff around hstructure).mp ⟨p, hplan⟩)
  refine ⟨hfails, ?_, ?_⟩
  · intro hdone h
    obtain ⟨message, hrun⟩ := hfails h
    exact hdone (by rw [hrun])
  · intro h
    unfold run
    rcases hcommand with hscan | hstructure
    · obtain ⟨p, hp⟩ := (exists_planScan_iff hscan).mpr h
      obtain ⟨hlocated, hfaults, hsource, key, hkey, hbackend⟩ := planScan_eq_ok_iff.mp hp
      refine ⟨p.settings, p.place, p.source, hlocated, hfaults, hsource, fun _ => ?_, ?_⟩
      · refine ⟨key, p.backend, hkey, hbackend, ?_⟩
        rw [hscan, hp]
      · rw [hscan]
        exact nofun
    · obtain ⟨p, hp⟩ := (exists_planStructure_iff around hstructure).mpr h
      obtain ⟨hlocated, hfaults, hsource⟩ := planStructure_eq_ok_iff.mp hp
      refine ⟨p.settings, p.place, p.source, hlocated, hfaults, hsource, ?_, fun _ => ?_⟩
      · rw [hstructure]
        exact nofun
      · rw [hstructure, hp]

/-- The settings in the file of a directory that is named. -/
theorem locate_of_readBytes {fs : FileSystem} {s : Settings} (text : String)
    (hdirectory : fs.isDirectory (.ofString ".vigil") = true)
    (hbytes : fs.readBytes (.ofString ".vigil/config.toml") = .ok text.toUTF8)
    (hparse : Settings.ofText? text = some s) :
    Settings.locate fs (some (.ofString ".vigil")) = .ok (s, some (.ofString ".vigil")) := by
  have hfile : (Path.ofString ".vigil").join configFile = .ofString ".vigil/config.toml" := by
    decide +kernel
  have htext : fs.readText (.ofString ".vigil/config.toml") = .ok text :=
    FileSystem.readText_of_readBytes text hbytes
  have hparent : (Path.ofString ".vigil/config.toml").parent? = some (.ofString ".vigil") := by
    decide +kernel
  simp only [Settings.locate, hdirectory, if_true, hfile, Settings.load, htext, hparse, hparent]
  rfl

def configuredText : String := "[logging]\ndir = \"logs\"\n"

/-- A configuration with a log directory, next to something in the way of a clone. -/
def configuredFiles : FileSystem where
  entries := [([nameOf ".vigil"], .directory),
    ([nameOf ".vigil", nameOf "config.toml"], .file configuredText.toUTF8),
    ([nameOf "cloned_repo"], .directory)]

def configuredSettings : Settings where
  logging := { dir := some (.ofString "logs") }

theorem locate_configured : Settings.locate configuredFiles (some (.ofString ".vigil")) =
    .ok (configuredSettings, some (.ofString ".vigil")) :=
  locate_of_readBytes configuredText (by cbv) (by cbv) (by decide +kernel)

/-- A world where every repository is empty and nobody answers. -/
def quietSurroundings : Surroundings Unit where
  clone _ path fs := (true, (fs.ensureDirectory path).toOption.getD fs)
  transport := ⟨fun _ => true, fun _ u => (.lost, u)⟩

/-- A repository and a blank key. -/
def keylessInvocation (command : Command) : Invocation where
  config := some (.ofString ".vigil")
  source := { repoUrl := some "https://example.com/r.git", apiKey := some " " }
  command := command

/-- The key is not looked at for a structure report. -/
theorem planStructure_keyless :
    planStructure configuredFiles (keylessInvocation .structureReport) =
      .ok ⟨configuredSettings, some (.ofString ".vigil"),
        .remote "https://example.com/r.git" (.ofString "./cloned_repo") false⟩ := by
  have hfaults : configuredSettings.faults = [] := by decide +kernel
  have hurl : (keylessInvocation .structureReport).source.resolvedUrl? configuredSettings =
      some "https://example.com/r.git" := by
    decide +kernel
  have hsource : (keylessInvocation .structureReport).source.source configuredSettings =
      .ok (.remote "https://example.com/r.git" (.ofString "./cloned_repo") false) :=
    source_eq_ok_iff.mpr (Or.inr ⟨_, rfl, hurl, rfl⟩)
  exact planStructure_eq_ok_iff.mpr ⟨locate_configured, hfaults, hsource⟩

/-- Without a key a scan does nothing, and a structure report begins. -/
theorem run_hindered_or_begun_keyless :
    Hindered quietSurroundings configuredFiles (keylessInvocation .scan) ∧
    (∃ message, run quietSurroundings "" (keylessInvocation .scan) ⟨configuredFiles, (), []⟩ =
      (.failed message, ⟨configuredFiles, (), []⟩)) ∧
    ∃ place source,
      run quietSurroundings "" (keylessInvocation .structureReport) ⟨configuredFiles, (), []⟩ =
        runStructurePlan quietSurroundings "" ⟨configuredSettings, place, source⟩
          ⟨configuredFiles, (), []⟩ := by
  have hkey : (keylessInvocation .scan).source.resolvedKey? configuredSettings = none := by
    decide +kernel
  have hhindered : Hindered quietSurroundings configuredFiles (keylessInvocation .scan) :=
    .noKey rfl locate_configured hkey
  have hfree : ¬ Hindered quietSurroundings configuredFiles (keylessInvocation .structureReport) :=
    (exists_planStructure_iff quietSurroundings rfl).mp ⟨_, planStructure_keyless⟩
  obtain ⟨hfails, -, -⟩ := run_hindered_or_begun quietSurroundings "" (keylessInvocation .scan)
    ⟨configuredFiles, (), []⟩ (Or.inl rfl)
  obtain ⟨-, -, hbegins⟩ := run_hindered_or_begun quietSurroundings ""
    (keylessInvocation .structureReport) ⟨configuredFiles, (), []⟩ (Or.inr rfl)
  obtain ⟨s, place, source, hlocated, -, -, -, hrun⟩ := hbegins hfree
  obtain ⟨rfl, -⟩ := Prod.mk.inj (Except.ok.inj (hlocated.symm.trans locate_configured))
  exact ⟨hhindered, hfails hhindered, place, source, hrun rfl⟩

end Triage
