import Triage.Proofs.Cleanup

/-!
# Reports after a run

A request leaves the files alone, and the end of a checkout changes nothing outside its directory.
So a report is there after the run, unless it was written into a clone that does not stay.
-/

namespace Triage

open Files FileSystem Service

variable {σ : Type} {around : Surroundings σ}

/-- The path leads through the directory of a clone that does not stay. -/
def Source.Takes (s : Source) (fs : FileSystem) (d p : Path) : Prop :=
  (∃ url, s = .remote url d false) ∧ fs.pathExists d = true ∧ fs.LiesIn p d

theorem isRemovedOnRelease_of_ofSource {source : Source} {c : Checkout} {w w' : World σ}
    (h : Checkout.ofSource around source w = (.ok c, w')) :
    c.isRemovedOnRelease = true ↔ ∃ url, source = .remote url c.path false := by
  cases source with
  | directory path =>
    rw [Checkout.ofSource, Checkout.ofDirectory] at h
    split at h
    · obtain rfl := Except.ok.inj (Prod.mk.inj h).1
      simp
    · cases (Prod.mk.inj h).1
  | remote url path keep =>
    rcases hcleared : Checkout.cleared around path w with ⟨e | u, found⟩
    · rw [(ofSource_of_not_cleared url keep hcleared).1] at h
      cases (Prod.mk.inj h).1
    · rw [ofSource_of_cleared url keep hcleared] at h
      split at h
      · obtain rfl := Except.ok.inj (Prod.mk.inj h).1
        cases keep <;> simp
      · cases (Prod.mk.inj h).1

theorem files_endingOf (r : Option (Except PipelineError Assessment)) (w : World σ) :
    (endingOf r w).2.files = w.files := by
  rcases r with _ | _ | _ <;> rfl

/-- What a report becomes at the end of a checkout depends on where it lies. -/
theorem readText_release (hremove : IsRemoval around.remove) {source : Source} {c : Checkout}
    {w w' : World σ} (h : Checkout.ofSource around source w = (.ok c, w')) (ended : World σ)
    (p : Path) :
    (¬ source.Takes ended.files c.path p →
      (c.release around ended).files.readText p = ended.files.readText p) ∧
    (source.Takes ended.files c.path p → (around.remove c.path ended.files).1 = .ok () →
      ∃ e, (c.release around ended).files.readText p = .error e) := by
  have hgoes := isRemovedOnRelease_of_ofSource h
  by_cases hremoved : (c.isRemovedOnRelease && ended.files.pathExists c.path) = true
  · obtain ⟨hwanted, hthere⟩ := Bool.and_eq_true_iff.mp hremoved
    have hfiles : (c.release around ended).files = (around.remove c.path ended.files).2 := by
      rw [Checkout.release, if_pos hremoved]
      rfl
    rw [hfiles]
    constructor
    · intro hout
      exact readText_congr (hremove.locate_of_not_liesIn fun hin =>
        hout ⟨hgoes.mp hwanted, hthere, hin⟩)
    · rintro ⟨-, -, hin⟩ hok
      exact hremove.readText_of_liesIn hok hin
  · rw [Checkout.release, if_neg hremoved]
    refine ⟨fun _ => rfl, ?_⟩
    rintro ⟨hclone, hthere, -⟩
    exact absurd (Bool.and_eq_true_iff.mpr ⟨hgoes.mpr hclone, hthere⟩) hremoved

/-- A report that was written and read back is the one that was collected. -/
theorem Pipeline.writeReport_eq_ok {root : Path} {s : Settings} {w w' : World σ} {report : Report}
    (hwords : Scan.FitsWords s.scanOptions w.files root)
    (h : Pipeline.writeReport root s w = (.ok report, w')) :
    (∃ stats, Scan.collectEvents s.scanOptions w.files root = .ok (report, stats)) ∧
      Report.load w'.files s.report.path = .ok report := by
  unfold Pipeline.writeReport at h
  split at h
  · cases h
  · rename_i collected stats hcollect
    split at h
    · cases h
    · rename_i stored hstored
      have hload := Pipeline.load_storeReport (Scan.collectEvents_fitWords hwords hcollect) hstored
      rw [hload] at h
      obtain ⟨hreport, rfl⟩ := Prod.mk.inj h
      obtain rfl := Except.ok.inj hreport
      exact ⟨⟨stats, hcollect⟩, hload⟩

/-- A scan whose report was read back ends with that report in its file, whatever came of the
request, of the removal of the clone and of the paths, with one exception: a report whose path
leads through a clone that is removed at the end goes with it. -/
theorem report_survives_unless_taken (hremove : IsRemoval around.remove) (day : String)
    (i : Invocation) (w : World σ) (hcommand : i.command = .scan) {p : ScanPlan σ}
    (hplan : planScan around w.files i = .ok p) {c : Checkout} {w₁ w₂ : World σ}
    (hcheckout : Checkout.ofSource around p.source (startLog p.settings p.place day w) =
      (.ok c, w₁))
    {report : Report} (hwords : Scan.FitsWords p.settings.scanOptions w₁.files c.path)
    (hread : Pipeline.writeReport c.path p.settings w₁ = (.ok report, w₂)) :
    let file := p.settings.report.path
    let final := (run around day i w).2
    (∃ stats, Scan.collectEvents p.settings.scanOptions w₁.files c.path = .ok (report, stats)) ∧
    (¬ p.source.Takes w₂.files c.path file → Report.load final.files file = .ok report) ∧
    (p.source.Takes w₂.files c.path file → (around.remove c.path w₂.files).1 = .ok () →
      ∃ e, Report.load final.files file = .error e) := by
  intro file final
  obtain ⟨hcollected, hload⟩ := Pipeline.writeReport_eq_ok hwords hread
  obtain ⟨-, -, -, key, -, hbackend⟩ := planScan_eq_ok_iff.mp hplan
  obtain ⟨hfiles, -⟩ := Pipeline.works_runScan hbackend c.path p.settings w₁ []
  rw [hread] at hfiles
  have hfinal : final.files =
      (c.release around (Pipeline.runScan c.path p.settings p.backend w₁ []).2.1).files := by
    simp only [final, run, hcommand, hplan, runScanPlan, hcheckout]
    exact files_endingOf _ _
  obtain ⟨hkept, hgone⟩ := readText_release hremove hcheckout
    (Pipeline.runScan c.path p.settings p.backend w₁ []).2.1 file
  rw [hfiles, ← hfinal] at hkept hgone
  refine ⟨hcollected, ?_, ?_⟩
  · intro hout
    have hsame : Report.load final.files file = Report.load w₂.files file := by
      rw [Report.load, Report.load, hkept hout]
    exact hsame.trans hload
  · intro hin hok
    obtain ⟨e, he⟩ := hgone hin hok
    exact ⟨.file e, by rw [Report.load, he]⟩

def nestedText : String := "[report]\npath = \"cloned_repo/report.json\"\n"

/-- A configuration with the report inside the clone. -/
def nestedFiles : FileSystem where
  entries := [([nameOf ".vigil"], .directory),
    ([nameOf ".vigil", nameOf "config.toml"], .file nestedText.toUTF8)]

def nestedPath : Path := .ofString "cloned_repo/report.json"

def nestedSettings : Settings where
  report := { path := nestedPath }

def nestedInvocation : Invocation where
  config := some (.ofString ".vigil")
  source := { repoUrl := some "https://example.com/r.git", apiKey := some "k" }

/-- The world after the clone, which is empty. -/
def clonedWorld : World Unit where
  files := { entries := nestedFiles.entries ++ [([nameOf "cloned_repo"], .directory)] }
  outside := ()
  effects := [.clone "https://example.com/r.git" (.ofString "./cloned_repo")]

/-- The files after the report. -/
def reportedFiles (content : ByteArray) : FileSystem :=
  clonedWorld.files.put [nameOf "cloned_repo", nameOf "report.json"] (.file content)

theorem planScan_nested : ∃ backend, planScan quietSurroundings nestedFiles nestedInvocation =
    .ok ⟨nestedSettings, some (.ofString ".vigil"),
      .remote "https://example.com/r.git" (.ofString "./cloned_repo") false, backend⟩ := by
  have hlocated : Settings.locate nestedFiles (some (.ofString ".vigil")) =
      .ok (nestedSettings, some (.ofString ".vigil")) :=
    locate_of_readBytes nestedText (by cbv) (by cbv) (by decide +kernel)
  have hfaults : nestedSettings.faults = [] := by decide +kernel
  have hurl : nestedInvocation.source.resolvedUrl? nestedSettings =
      some "https://example.com/r.git" := by
    decide +kernel
  have hsource : nestedInvocation.source.source nestedSettings =
      .ok (.remote "https://example.com/r.git" (.ofString "./cloned_repo") false) :=
    source_eq_ok_iff.mpr (Or.inr ⟨_, rfl, hurl, rfl⟩)
  have hkey : nestedInvocation.source.resolvedKey? nestedSettings = some "k" := by decide +kernel
  obtain ⟨backend, hbackend⟩ : ∃ b, serviceBackend quietSurroundings
      (nestedSettings.serviceSettings "k") = .ok b :=
    exists_serviceBackend (by decide +kernel) rfl
  exact ⟨backend, planScan_eq_ok_iff.mpr ⟨hlocated, hfaults, hsource, "k", hkey, hbackend⟩⟩

theorem takes_nested (content : ByteArray) :
    (Source.remote "https://example.com/r.git" (.ofString "./cloned_repo") false).Takes
      (reportedFiles content) (.ofString "./cloned_repo") nestedPath := by
  have hthere : (reportedFiles content).pathExists (.ofString "./cloned_repo") = true := by cbv
  have hlocate : (reportedFiles content).locate false (.ofString "./cloned_repo") =
      .ok ([nameOf "cloned_repo"], some .directory) := by
    cbv
  have hway : ((reportedFiles content).way nestedPath).contains [nameOf "cloned_repo"] = true := by
    cbv
  exact ⟨⟨_, rfl⟩, hthere, _, _, hlocate, _, List.contains_iff_mem.mp hway, List.prefix_refl _⟩

theorem remove_nested (content : ByteArray) :
    (quietSurroundings.remove (.ofString "./cloned_repo") (reportedFiles content)).1 = .ok () := by
  cbv

theorem storeReport_nested :
    ∃ w : World Unit, Pipeline.storeReport {} nestedPath clonedWorld = (.ok (), w) ∧
      w.files = reportedFiles ({} : Report).fileText.toUTF8 := by
  have hmade : Report.withParent clonedWorld.files nestedPath = .ok clonedWorld.files := by cbv
  have hplace : clonedWorld.files.locate true nestedPath =
      .ok ([nameOf "cloned_repo", nameOf "report.json"], none) := by
    cbv
  have hstore := Report.store_of_locate {} hmade hplace (by cbv)
  obtain ⟨hresult, hfiles⟩ := Pipeline.storeReport_eq {} nestedPath clonedWorld
  rw [hstore] at hresult hfiles
  exact ⟨_, Prod.ext hresult rfl, hfiles⟩

/-- A report inside the clone is read back, and at the end of the run it is not there. -/
theorem report_survives_unless_taken_nested :
    IsRemoval quietSurroundings.remove ∧ nestedInvocation.command = .scan ∧
    ∃ p c w₁ w₂, planScan quietSurroundings nestedFiles nestedInvocation = .ok p ∧
      Checkout.ofSource quietSurroundings p.source
        (startLog p.settings p.place "" ⟨nestedFiles, (), []⟩) = (.ok c, w₁) ∧
      Scan.FitsWords p.settings.scanOptions w₁.files c.path ∧
      Pipeline.writeReport c.path p.settings w₁ = (.ok {}, w₂) ∧
      Report.load w₂.files nestedPath = .ok {} ∧
      ∃ e, Report.load (run quietSurroundings "" nestedInvocation
        ⟨nestedFiles, (), []⟩).2.files nestedPath = .error e := by
  have hremoval : IsRemoval quietSurroundings.remove := isRemoval_removeTree
  obtain ⟨backend, hplan⟩ := planScan_nested
  have hcheckout : Checkout.ofSource quietSurroundings
      (.remote "https://example.com/r.git" (.ofString "./cloned_repo") false)
      (startLog nestedSettings (some (.ofString ".vigil")) "" ⟨nestedFiles, (), []⟩) =
        (.ok ⟨.ofString "./cloned_repo", true⟩, clonedWorld) := by
    cbv
  have hsources : Scan.sourceFiles nestedSettings.scanOptions clonedWorld.files
      (.ofString "./cloned_repo") = .ok [] := by
    cbv
  have hwords : Scan.FitsWords nestedSettings.scanOptions clonedWorld.files
      (.ofString "./cloned_repo") := by
    intro paths hpaths q hq
    obtain rfl := Except.ok.inj (hsources.symm.trans hpaths)
    cases hq
  have hcollect : Scan.collectEvents nestedSettings.scanOptions clonedWorld.files
      (.ofString "./cloned_repo") = .ok ({}, {}) := by
    simp only [Scan.collectEvents, hsources]
    rfl
  obtain ⟨w₂, hstored, hfiles⟩ := storeReport_nested
  have hload : Report.load w₂.files nestedPath = .ok {} :=
    Pipeline.load_storeReport (List.forall_mem_nil _) hstored
  have hread : Pipeline.writeReport (.ofString "./cloned_repo") nestedSettings clonedWorld =
      (.ok {}, w₂) := by
    simp only [Pipeline.writeReport, hcollect]
    rw [show nestedSettings.report.path = nestedPath from rfl, hstored]
    simp only [hload]
  have hok : (quietSurroundings.remove (.ofString "./cloned_repo") w₂.files).1 = .ok () :=
    hfiles ▸ remove_nested _
  obtain ⟨-, -, hgone⟩ := report_survives_unless_taken hremoval "" nestedInvocation
    ⟨nestedFiles, (), []⟩ rfl hplan hcheckout hwords hread
  exact ⟨hremoval, rfl, _, _, _, _, hplan, hcheckout, hwords, hread, hload,
    hgone (hfiles ▸ takes_nested _) hok⟩

end Triage
