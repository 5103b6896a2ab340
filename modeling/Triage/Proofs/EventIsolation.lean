import Mathlib
import Triage.Proofs.ReusedReader
import Triage.Proofs.Scan

/-!
# Each file's events are its own

The events of a scan are those of the files that were read, file by file in the order of the walk.
What becomes of one file, or whether it is there at all, changes nothing about the others.
-/

namespace Triage.Scan

open Files

/-- The events of the files that were read, and the numbers that go with them. -/
structure Accounts (os : List (Outcome (List Event))) (report : Report) (stats : ScanStats) :
    Prop where
  analysis : report.analysis = (os.filterMap (·.2.toOption)).flatten
  seen : stats.seen = os.length
  analyzed : stats.analyzed = os.countP (·.2.isOk)
  analyzed_add_skipped : stats.analyzed + stats.skipped = stats.seen
  records : stats.records = report.length

theorem flatMap_eventsOf (os : List (Outcome (List Event))) :
    os.flatMap eventsOf = (os.filterMap (·.2.toOption)).flatten := by
  induction os with
  | nil => rfl
  | cons o os ih =>
    obtain ⟨p, r⟩ := o
    rw [List.flatMap_cons, ih]
    cases r <;> simp [eventsOf, Except.toOption]

theorem accounts_gatherEvents (os : List (Outcome (List Event))) :
    Accounts os (gatherEvents os).1 (gatherEvents os).2 := by
  have hcounts := fileCounts_gatherEvents os
  simp only [ScanStats.fileCounts, fileCounts, Prod.mk.injEq] at hcounts
  obtain ⟨hseen, hanalyzed, hskipped⟩ := hcounts
  refine ⟨?_, hseen, hanalyzed, ?_, records_gatherEvents os⟩
  · rw [analysis_gatherEvents, flatMap_eventsOf]
  · rw [hseen, hanalyzed, hskipped]
    exact fileCounts_add os

/-- The events of some files in a row do not depend on the files around them. -/
theorem analysis_gatherEvents_append (before middle after : List (Outcome (List Event))) :
    (gatherEvents (before ++ middle ++ after)).1.analysis =
      (gatherEvents before).1.analysis ++ (gatherEvents middle).1.analysis ++
        (gatherEvents after).1.analysis := by
  simp only [analysis_gatherEvents, List.flatMap_append]

/-- A root is walked exactly when it is a directory. -/
theorem walk?_isSome (fs : FileSystem) (root : Path) (filtered : Bool) :
    (walk? fs root filtered).isSome = fs.isDirectory root := by
  rw [walk?, FileSystem.isDirectory]
  cases fs.locate true root with
  | error e => rfl
  | ok found =>
    obtain ⟨place, entry⟩ := found
    cases entry with
    | none => rfl
    | some entry => cases entry <;> rfl

theorem sourceFiles_of_not_directory {options : ScanOptions} {fs : FileSystem} {root : Path}
    (h : fs.isDirectory root = false) : sourceFiles options fs root = .error ⟨root⟩ := by
  rw [← walk?_isSome fs root options.respectIgnoreFiles, Option.isSome_eq_false_iff,
    Option.isNone_iff_eq_none] at h
  rw [sourceFiles, h]

theorem sourceFiles_of_directory {options : ScanOptions} {fs : FileSystem} {root : Path}
    (h : fs.isDirectory root = true) : ∃ files, sourceFiles options fs root = .ok files := by
  rw [← walk?_isSome fs root options.respectIgnoreFiles] at h
  obtain ⟨paths, hpaths⟩ := Option.isSome_iff_exists.mp h
  exact ⟨_, by rw [sourceFiles, hpaths]⟩

/-- The events of files in a row. -/
def eventsIn (fs : FileSystem) (files : List Path) : List Event :=
  files.flatMap fun p => eventsOf (fileEvents fs p)

theorem analysis_of_files (fs : FileSystem) (files : List Path) :
    (gatherEvents (files.map (fileEvents fs))).1.analysis = eventsIn fs files := by
  rw [analysis_gatherEvents, List.flatMap_map, eventsIn]

theorem eventsIn_append (fs : FileSystem) (files more : List Path) :
    eventsIn fs (files ++ more) = eventsIn fs files ++ eventsIn fs more :=
  List.flatMap_append

theorem eventsIn_singleton (fs : FileSystem) (p : Path) :
    eventsIn fs [p] = eventsOf (fileEvents fs p) := by
  rw [eventsIn, List.flatMap_singleton]

theorem eventsIn_congr {fs fs' : FileSystem} {files : List Path}
    (h : ∀ p ∈ files, SourceFile.load fs p = SourceFile.load fs' p) :
    eventsIn fs files = eventsIn fs' files := by
  refine List.flatMap_congr fun p hp => ?_
  rw [fileEvents, fileEvents, h p hp]

/-- A scan of a directory keeps the events of the files that it reads, one file after the other,
and none of the others, and one reader for all files gives the same. Files that are put in, taken
out or changed leave the events of the other files as they are, whatever the outcomes. -/
theorem collectEvents_isolates_files :
    (∀ options fs root,
      (fs.isDirectory root = false → collectEvents options fs root = .error ⟨root⟩) ∧
      (fs.isDirectory root = true → ∃ files, sourceFiles options fs root = .ok files ∧
        collectEvents options fs root = .ok (gatherEvents (files.map (fileEvents fs))) ∧
        ∀ r, (eventsWith fs files r ({}, {})).1 = gatherEvents (files.map (fileEvents fs)))) ∧
    (∀ os, Accounts os (gatherEvents os).1 (gatherEvents os).2) ∧
    (∀ before middle after : List (Outcome (List Event)),
      (gatherEvents (before ++ middle ++ after)).1.analysis =
        (gatherEvents before).1.analysis ++ (gatherEvents middle).1.analysis ++
          (gatherEvents after).1.analysis) ∧
    (∀ fs p, (∀ f, SourceFile.load fs p = .ok f →
        eventsIn fs [p] = f.tree.events f.source p.text) ∧
      ∀ e, SourceFile.load fs p = .error e → eventsIn fs [p] = []) ∧
    ∀ options options' fs fs' root root' before middle middle' after,
      sourceFiles options fs root = .ok (before ++ middle ++ after) →
      sourceFiles options' fs' root' = .ok (before ++ middle' ++ after) →
      (∀ p ∈ before ++ after, SourceFile.load fs p = SourceFile.load fs' p) →
      ∃ report stats report' stats',
        collectEvents options fs root = .ok (report, stats) ∧
        collectEvents options' fs' root' = .ok (report', stats') ∧
        report.analysis = eventsIn fs before ++ eventsIn fs middle ++ eventsIn fs after ∧
        report'.analysis = eventsIn fs before ++ eventsIn fs' middle' ++ eventsIn fs after := by
  refine ⟨fun options fs root => ⟨?_, ?_⟩, accounts_gatherEvents, analysis_gatherEvents_append,
    fun fs p => ⟨?_, ?_⟩, ?_⟩
  · intro hroot
    simp only [collectEvents, sourceFiles_of_not_directory hroot, bind, Except.bind]
  · intro hroot
    obtain ⟨files, hfiles⟩ := sourceFiles_of_directory hroot
    exact ⟨files, hfiles, collectEvents_of_files hfiles, fun r => eventsWith_eq fs files r ({}, {})⟩
  · intro f hf
    rw [eventsIn_singleton, fileEvents, hf]
    rfl
  · intro e he
    rw [eventsIn_singleton, fileEvents, he]
    rfl
  · intro options options' fs fs' root root' before middle middle' after hfiles hfiles' hsame
    refine ⟨_, _, _, _, collectEvents_of_files hfiles, collectEvents_of_files hfiles', ?_, ?_⟩
    · refine (analysis_of_files fs _).trans ?_
      rw [eventsIn_append, eventsIn_append]
    · have hbefore := eventsIn_congr fun p hp => hsame p (List.mem_append_left after hp)
      have hafter := eventsIn_congr fun p hp => hsame p (List.mem_append_right before hp)
      refine (analysis_of_files fs' _).trans ?_
      rw [eventsIn_append, eventsIn_append, hbefore, hafter]

/-- A call, next to a file that is no source. -/
def brokenSystem : FileSystem where
  entries := [([nameOf "r"], .directory), ([nameOf "r", nameOf "a.py"], .file "f(1)".toUTF8),
    ([nameOf "r", nameOf "b.py"], .file "(".toUTF8)]

/-- The same without the file that is no source. -/
def repairedSystem : FileSystem where
  entries := [([nameOf "r"], .directory), ([nameOf "r", nameOf "a.py"], .file "f(1)".toUTF8)]

theorem load_broken : ∃ e, SourceFile.load brokenSystem (.ofString "r/b.py") = .error e := by
  have hlanguage : Language.ofPath? (.ofString "r/b.py") = some .python := by cbv
  have hbytes : brokenSystem.readBytes (.ofString "r/b.py") = .ok "(".toUTF8 := by cbv
  have htext : Text.decode? "(".toUTF8 = some "(" := by decide +kernel
  have hparse : (Python.parse? "(").isOk = false := by decide +kernel
  cases ht : Python.parse? "(" with
  | ok _ =>
    rw [ht] at hparse
    cases hparse
  | error line =>
    exact ⟨.malformed line, by
      simp only [SourceFile.load, hlanguage, hbytes, htext, SourceFile.ofText, ht, Except.map]⟩

/-- The event of the call. -/
def callEvents : List Event := [⟨"r/a.py", some 1, .functionCall, .call "f" 1⟩]

theorem load_call : ∃ f, SourceFile.load brokenSystem (.ofString "r/a.py") = .ok f ∧
    f.tree.events f.source (Path.ofString "r/a.py").text = callEvents := by
  have hlanguage : Language.ofPath? (.ofString "r/a.py") = some .python := by cbv
  have hbytes : brokenSystem.readBytes (.ofString "r/a.py") = .ok "f(1)".toUTF8 := by cbv
  have htext : Text.decode? "f(1)".toUTF8 = some "f(1)" := by decide +kernel
  have hevents : ((Python.parse? "f(1)").toOption.any fun t =>
      decide (t.events "f(1)" (Path.ofString "r/a.py").text = callEvents)) = true := by
    decide +kernel
  cases hparse : Python.parse? "f(1)" with
  | error line =>
    rw [hparse] at hevents
    cases hevents
  | ok tree =>
    rw [hparse] at hevents
    exact ⟨_, load_eq_ok hlanguage hbytes htext hparse, of_decide_eq_true hevents⟩

/-- The broken file adds nothing to the event of the other one. -/
theorem collectEvents_isolates_files_broken :
    sourceFiles {} brokenSystem (.ofString "r") =
      .ok ([.ofString "r/a.py"] ++ [.ofString "r/b.py"] ++ []) ∧
    sourceFiles {} repairedSystem (.ofString "r") = .ok ([.ofString "r/a.py"] ++ [] ++ []) ∧
    (∀ p ∈ [Path.ofString "r/a.py"] ++ [],
      SourceFile.load brokenSystem p = SourceFile.load repairedSystem p) ∧
    (∃ e, SourceFile.load brokenSystem (.ofString "r/b.py") = .error e) ∧
    brokenSystem.isDirectory (.ofString "s") = false ∧
    collectEvents {} brokenSystem (.ofString "s") = .error ⟨.ofString "s"⟩ ∧
    ∃ report stats report' stats',
      collectEvents {} brokenSystem (.ofString "r") = .ok (report, stats) ∧
      collectEvents {} repairedSystem (.ofString "r") = .ok (report', stats') ∧
      report.analysis = callEvents ∧ report'.analysis = callEvents := by
  have hfiles : sourceFiles {} brokenSystem (.ofString "r") =
      .ok ([.ofString "r/a.py"] ++ [.ofString "r/b.py"] ++ []) := by cbv
  have hfiles' : sourceFiles {} repairedSystem (.ofString "r") =
      .ok ([.ofString "r/a.py"] ++ [] ++ []) := by cbv
  have hsame : ∀ p ∈ [Path.ofString "r/a.py"] ++ [],
      SourceFile.load brokenSystem p = SourceFile.load repairedSystem p := by
    intro p hp
    obtain rfl : p = .ofString "r/a.py" := by simpa using hp
    have hbytes : brokenSystem.readBytes (.ofString "r/a.py") =
        repairedSystem.readBytes (.ofString "r/a.py") := by cbv
    simp only [SourceFile.load, hbytes]
  have hroot : brokenSystem.isDirectory (.ofString "s") = false := by cbv
  obtain ⟨hcollect, -, -, hown, hpair⟩ := collectEvents_isolates_files
  obtain ⟨e, he⟩ := load_broken
  obtain ⟨report, stats, report', stats', hrun, hrun', hanalysis, hanalysis'⟩ :=
    hpair {} {} _ _ _ _ _ _ _ _ hfiles hfiles' hsame
  obtain ⟨f, hf, hevents⟩ := load_call
  have hcall := ((hown brokenSystem _).1 f hf).trans hevents
  refine ⟨hfiles, hfiles', hsame, ⟨e, he⟩, hroot, (hcollect {} brokenSystem _).1 hroot,
    report, stats, report', stats', hrun, hrun', ?_, ?_⟩
  · rw [hanalysis, hcall, (hown brokenSystem _).2 e he]
    rfl
  · rw [hanalysis', hcall]
    rfl

end Triage.Scan
