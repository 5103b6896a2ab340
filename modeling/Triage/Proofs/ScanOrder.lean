import Mathlib
import Triage.Proofs.CallAgreement
import Triage.Proofs.EventIsolation
import Triage.Proofs.Files.Listing
import Triage.Proofs.Latest

/-!
# The order of a walk

A directory lists its entries in no particular order, and a scan takes its files as they come. When
no two files share a key, the order leaves no trace in a structure report or in the numbers of a
scan, and in the events only until they are sorted by file.
-/

namespace Triage

/-- Events by file; the events of one file keep their order. -/
def sortByFile (es : List Event) : List Event := es.mergeSort fun a b => decide (a.file ≤ b.file)

/-- Events that are sorted by file. -/
def ByFile (es : List Event) : Prop := es.Pairwise (·.file ≤ ·.file)

theorem le_file_trans (a b c : Event) (hab : decide (a.file ≤ b.file) = true)
    (hbc : decide (b.file ≤ c.file) = true) : decide (a.file ≤ c.file) = true :=
  decide_eq_true (String.le_trans (of_decide_eq_true hab) (of_decide_eq_true hbc))

theorem le_file_total (a b : Event) :
    (decide (a.file ≤ b.file) || decide (b.file ≤ a.file)) = true := by
  rw [Bool.or_eq_true, decide_eq_true_iff, decide_eq_true_iff]
  exact String.le_total a.file b.file

theorem byFile_sortByFile (es : List Event) : ByFile (sortByFile es) := by
  refine (List.pairwise_mergeSort le_file_trans le_file_total es).imp ?_
  intro a b hab
  exact of_decide_eq_true hab

/-- The events of one file. -/
def fromFile (file : String) (es : List Event) : List Event := es.filter (·.file == file)

theorem mem_fromFile {file : String} {es : List Event} {e : Event} :
    e ∈ fromFile file es ↔ e ∈ es ∧ e.file = file := by
  rw [fromFile, List.mem_filter, beq_iff_eq]

theorem fromFile_cons_of_eq {file : String} {es : List Event} {e : Event} (h : e.file = file) :
    fromFile file (e :: es) = e :: fromFile file es := by
  simp [fromFile, h]

theorem fromFile_cons_of_ne {file : String} {es : List Event} {e : Event} (h : e.file ≠ file) :
    fromFile file (e :: es) = fromFile file es := by
  simp [fromFile, h]

theorem fromFile_append (file : String) (es es' : List Event) :
    fromFile file (es ++ es') = fromFile file es ++ fromFile file es' :=
  List.filter_append es es'

/-- The sort is stable: it leaves the events of each file as they were. -/
theorem fromFile_sortByFile (file : String) (es : List Event) :
    fromFile file (sortByFile es) = fromFile file es := by
  have hordered : (fromFile file es).Pairwise fun a b => decide (a.file ≤ b.file) = true := by
    apply List.pairwise_of_forall_mem_list
    intro a ha b hb
    have hsame : a.file = b.file := (mem_fromFile.mp ha).2.trans (mem_fromFile.mp hb).2.symm
    exact decide_eq_true (hsame ▸ String.le_refl a.file)
  have hkept : (fromFile file es).Sublist (sortByFile es) :=
    List.sublist_mergeSort le_file_trans le_file_total hordered List.filter_sublist
  have hinside : (fromFile file es).Sublist (fromFile file (sortByFile es)) := by
    have hfilter := hkept.filter (·.file == file)
    rwa [fromFile, List.filter_filter, funext fun e : Event => Bool.and_self (e.file == file)]
      at hfilter
  have hlength : (fromFile file (sortByFile es)).length = (fromFile file es).length :=
    ((List.mergeSort_perm es _).filter _).length_eq
  exact (hinside.eq_of_length hlength.symm).symm

theorem ByFile.le_of_mem {es : List Event} {first e : Event} (h : ByFile (first :: es))
    (he : e ∈ first :: es) : first.file ≤ e.file := by
  rcases List.mem_cons.mp he with rfl | he
  · exact String.le_refl _
  · exact (List.pairwise_cons.mp h).1 e he

theorem mem_of_fromFile_eq {es es' : List Event} {e : Event} (he : e ∈ es)
    (h : fromFile e.file es = fromFile e.file es') : e ∈ es' := by
  have hown : e ∈ fromFile e.file es := mem_fromFile.mpr ⟨he, rfl⟩
  rw [h] at hown
  exact (mem_fromFile.mp hown).1

/-- Sorted events are told by the events of each file. -/
theorem ByFile.eq_of_fromFile_eq {es es' : List Event} (h : ByFile es) (h' : ByFile es')
    (same : ∀ file, fromFile file es = fromFile file es') : es = es' := by
  induction es generalizing es' with
  | nil =>
    cases es' with
    | nil => rfl
    | cons e' es' => cases mem_of_fromFile_eq List.mem_cons_self (same e'.file).symm
  | cons e es ih =>
    cases es' with
    | nil => cases mem_of_fromFile_eq List.mem_cons_self (same e.file)
    | cons e' es' =>
      have hle : e'.file ≤ e.file :=
        h'.le_of_mem (mem_of_fromFile_eq List.mem_cons_self (same e.file))
      have hge : e.file ≤ e'.file :=
        h.le_of_mem (mem_of_fromFile_eq List.mem_cons_self (same e'.file).symm)
      have hfile : e'.file = e.file := String.le_antisymm hle hge
      -- both lists begin with the first event of one file
      have hfirst := same e.file
      rw [fromFile_cons_of_eq rfl, fromFile_cons_of_eq hfile] at hfirst
      obtain rfl := (List.cons.inj hfirst).1
      congr 1
      apply ih (List.pairwise_cons.mp h).2 (List.pairwise_cons.mp h').2
      intro file
      have hrest := same file
      by_cases hown : e.file = file
      · rw [fromFile_cons_of_eq hown, fromFile_cons_of_eq hown] at hrest
        exact (List.cons.inj hrest).2
      · rwa [fromFile_cons_of_ne hown, fromFile_cons_of_ne hown] at hrest

theorem ScanStats.eq_of_fileCounts {s s' : ScanStats} (hfiles : s.fileCounts = s'.fileCounts)
    (hrecords : s.records = s'.records) : s = s' := by
  obtain ⟨seen, analyzed, skipped, records⟩ := s
  obtain ⟨seen', analyzed', skipped', records'⟩ := s'
  simp only [ScanStats.fileCounts, Prod.mk.injEq] at hfiles
  obtain ⟨rfl, rfl, rfl⟩ := hfiles
  cases hrecords
  rfl

namespace Scan

open Files

theorem fileCounts_perm {α : Type} {os os' : List (Outcome α)} (h : os.Perm os') :
    fileCounts os = fileCounts os' := by
  simp only [fileCounts, h.length_eq, h.countP_eq]

theorem stats_gatherEvents_perm {os os' : List (Outcome (List Event))} (h : os.Perm os') :
    (gatherEvents os).2 = (gatherEvents os').2 := by
  refine ScanStats.eq_of_fileCounts ?_ ?_
  · rw [fileCounts_gatherEvents, fileCounts_gatherEvents, fileCounts_perm h]
  · rw [records_gatherEvents, records_gatherEvents, Report.length, Report.length,
      analysis_gatherEvents, analysis_gatherEvents]
    exact (h.flatMap_right eventsOf).length_eq

theorem gatherStructure_perm {os os' : List (Outcome FileRecord)} (h : os.Perm os')
    (distinct : (os.map fun o => (recordOf o).path).Nodup) :
    gatherStructure os = gatherStructure os' := by
  refine Prod.ext ?_ (ScanStats.eq_of_fileCounts ?_ ?_)
  · rw [report_gatherStructure, report_gatherStructure]
    refine StructureReport.insertAll_perm (h.map recordOf) ?_
    rwa [List.map_map]
  · rw [fileCounts_gatherStructure, fileCounts_gatherStructure, fileCounts_perm h]
  · rw [records_gatherStructure, records_gatherStructure]
    exact (h.map _).sum_nat

theorem fromFile_eventsOf (fs : FileSystem) (p : Path) (file : String) :
    fromFile file (eventsOf (fileEvents fs p)) =
      if p.text = file then eventsOf (fileEvents fs p) else [] := by
  split
  · rename_i hown
    apply List.filter_eq_self.mpr
    intro e he
    exact beq_iff_eq.mpr ((file_of_mem_eventsOf he).trans hown)
  · rename_i hother
    apply List.filter_eq_nil_iff.mpr
    intro e he hfile
    exact hother ((file_of_mem_eventsOf he).symm.trans (beq_iff_eq.mp hfile))

/-- The events with a file's name come from the files of that name. -/
theorem fromFile_eventsIn (fs : FileSystem) (files : List Path) (file : String) :
    fromFile file (eventsIn fs files) = eventsIn fs (files.filter (·.text == file)) := by
  induction files with
  | nil => rfl
  | cons p files ih =>
    have hcons : eventsIn fs (p :: files) = eventsOf (fileEvents fs p) ++ eventsIn fs files :=
      List.flatMap_cons
    rw [hcons, fromFile_append, ih, fromFile_eventsOf]
    by_cases hown : p.text = file
    · rw [if_pos hown, List.filter_cons, if_pos (beq_iff_eq.mpr hown), eventsIn, eventsIn,
        List.flatMap_cons]
    · rw [if_neg hown, List.filter_cons, if_neg (mt beq_iff_eq.mp hown), List.nil_append]

theorem sortByFile_eventsIn_perm {fs : FileSystem} {files files' : List Path}
    (h : files.Perm files') (distinct : (files.map (·.text)).Nodup) :
    sortByFile (eventsIn fs files) = sortByFile (eventsIn fs files') := by
  apply (byFile_sortByFile _).eq_of_fromFile_eq (byFile_sortByFile _)
  intro file
  rw [fromFile_sortByFile, fromFile_sortByFile, fromFile_eventsIn, fromFile_eventsIn,
    filter_key_eq h distinct]

theorem sourceFiles_relists {options : ScanOptions} {fs fs' : FileSystem} {root : Path}
    {files : List Path} (h : fs.Relists fs') (hfiles : sourceFiles options fs root = .ok files) :
    ∃ files', sourceFiles options fs' root = .ok files' ∧ files.Perm files' := by
  unfold sourceFiles at hfiles ⊢
  cases hwalk : walk? fs root options.respectIgnoreFiles with
  | none =>
    rw [hwalk] at hfiles
    cases hfiles
  | some paths =>
    rw [hwalk] at hfiles
    obtain rfl := Except.ok.inj hfiles
    obtain ⟨paths', hwalk', hperm⟩ := h.walk? hwalk
    rw [hwalk']
    exact ⟨_, rfl, hperm.filter _⟩

/-- Both scans of some files, met in two orders: they differ in the order of the events alone. -/
structure SameScans (options : ScanOptions) (fs : FileSystem) (files files' : List Path) :
    Prop where
  gatherStructure_eq : gatherStructure (files.map (fileRecord options fs)) =
    gatherStructure (files'.map (fileRecord options fs))
  stats_eq : (gatherEvents (files.map (fileEvents fs))).2 =
    (gatherEvents (files'.map (fileEvents fs))).2
  sorted_eq : sortByFile (gatherEvents (files.map (fileEvents fs))).1.analysis =
    sortByFile (gatherEvents (files'.map (fileEvents fs))).1.analysis

theorem sameScans_of_perm (options : ScanOptions) (fs : FileSystem) {files files' : List Path}
    (h : files.Perm files') (distinct : (files.map (·.text)).Nodup) :
    SameScans options fs files files' where
  gatherStructure_eq := by
    apply gatherStructure_perm (h.map _)
    rw [List.map_map]
    simpa only [Function.comp_def, recordOf_path] using distinct
  stats_eq := stats_gatherEvents_perm (h.map _)
  sorted_eq := by
    rw [analysis_of_files, analysis_of_files]
    exact sortByFile_eventsIn_perm h distinct

/-- The order in which files are met does not matter when no two of them share a key: the structure
report and the numbers of both scans are the same, and so are the events once they are sorted by
file. In particular it does not matter in which order directories list their entries. -/
theorem scans_ignore_walk_order :
    (∀ (options : ScanOptions) (fs : FileSystem) (files files' : List Path), files.Perm files' →
      (files.map (·.text)).Nodup → SameScans options fs files files') ∧
    ∀ (options : ScanOptions) (fs fs' : FileSystem) (root : Path) (files : List Path),
      fs.Relists fs' → sourceFiles options fs root = .ok files → (files.map (·.text)).Nodup →
      (∃ files', sourceFiles options fs' root = .ok files' ∧ files.Perm files') ∧
      (∃ s s' stats, collectStructure options fs root = .ok (s, stats) ∧
        collectStructure options fs' root = .ok (s', stats) ∧ s = s' ∧
        s.promptText = s'.promptText ∧ s.allRoutes = s'.allRoutes) ∧
      ∃ report report' stats, collectEvents options fs root = .ok (report, stats) ∧
        collectEvents options fs' root = .ok (report', stats) ∧
        sortByFile report.analysis = sortByFile report'.analysis := by
  refine ⟨fun options fs _ _ hperm distinct => sameScans_of_perm options fs hperm distinct, ?_⟩
  intro options fs fs' root files hrelists hfiles distinct
  obtain ⟨files', hfiles', hperm⟩ := sourceFiles_relists hrelists hfiles
  have hsame := sameScans_of_perm options fs hperm distinct
  -- the files hold the same, whatever list of entries they are read from
  have hrecords : fileRecord options fs' = fileRecord options fs := by
    funext p
    rw [fileRecord, fileRecord, hrelists.load]
  have hevents : fileEvents fs' = fileEvents fs := by
    funext p
    rw [fileEvents, fileEvents, hrelists.load]
  have hstructure' : collectStructure options fs' root =
      .ok (gatherStructure (files.map (fileRecord options fs))) := by
    rw [collectStructure_of_files hfiles', hrecords, hsame.gatherStructure_eq]
  have hevents' : collectEvents options fs' root = .ok
      ((gatherEvents (files'.map (fileEvents fs))).1,
        (gatherEvents (files.map (fileEvents fs))).2) := by
    rw [collectEvents_of_files hfiles', hevents, hsame.stats_eq]
  exact ⟨⟨files', hfiles', hperm⟩,
    ⟨_, _, _, collectStructure_of_files hfiles, hstructure', rfl, rfl, rfl⟩,
    ⟨_, _, _, collectEvents_of_files hfiles, hevents', hsame.sorted_eq⟩⟩

/-- Two source files with a call in each. -/
def twoCallsSystem : FileSystem where
  entries := [([nameOf "r"], .directory), ([nameOf "r", nameOf "a.py"], .file "f(1)".toUTF8),
    ([nameOf "r", nameOf "b.py"], .file "g()".toUTF8)]

/-- The same two files, listed the other way round. -/
def relistedSystem : FileSystem :=
  { twoCallsSystem with entries := twoCallsSystem.entries.reverse }

theorem relists_twoCalls : twoCallsSystem.Relists relistedSystem where
  entries := (List.reverse_perm _).symm
  distinct := by decide +kernel
  working := rfl

theorem sourceFiles_twoCalls : sourceFiles {} twoCallsSystem (.ofString "r") =
    .ok [.ofString "r/a.py", .ofString "r/b.py"] := by
  cbv

theorem sourceFiles_relisted : sourceFiles {} relistedSystem (.ofString "r") =
    .ok [.ofString "r/b.py", .ofString "r/a.py"] := by
  cbv

/-- The walk meets the two files in the other order, and the scans are the same. -/
theorem scans_ignore_walk_order_relisted :
    twoCallsSystem.Relists relistedSystem ∧
    sourceFiles {} twoCallsSystem (.ofString "r") =
      .ok [.ofString "r/a.py", .ofString "r/b.py"] ∧
    sourceFiles {} relistedSystem (.ofString "r") =
      .ok [.ofString "r/b.py", .ofString "r/a.py"] ∧
    ([Path.ofString "r/a.py", Path.ofString "r/b.py"].map (·.text)).Nodup ∧
    SameScans {} twoCallsSystem [.ofString "r/a.py", .ofString "r/b.py"]
      [.ofString "r/b.py", .ofString "r/a.py"] ∧
    (∃ s stats, collectStructure {} twoCallsSystem (.ofString "r") = .ok (s, stats) ∧
      collectStructure {} relistedSystem (.ofString "r") = .ok (s, stats)) ∧
    ∃ report report' stats,
      collectEvents {} twoCallsSystem (.ofString "r") = .ok (report, stats) ∧
      collectEvents {} relistedSystem (.ofString "r") = .ok (report', stats) ∧
      sortByFile report.analysis = sortByFile report'.analysis := by
  have distinct : ([Path.ofString "r/a.py", Path.ofString "r/b.py"].map (·.text)).Nodup := by
    decide +kernel
  obtain ⟨hperm, hrelist⟩ := scans_ignore_walk_order
  obtain ⟨-, ⟨s, s', stats, hrun, hrun', rfl, -, -⟩, hevents⟩ :=
    hrelist {} _ _ _ _ relists_twoCalls sourceFiles_twoCalls distinct
  exact ⟨relists_twoCalls, sourceFiles_twoCalls, sourceFiles_relisted, distinct,
    hperm _ _ _ _ (.swap _ _ _) distinct, ⟨s, stats, hrun, hrun'⟩, hevents⟩

end Scan

end Triage
