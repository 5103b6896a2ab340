import Mathlib
import Triage.Proofs.Files.PathText
import Triage.Proofs.Latest
import Triage.Proofs.Scan

/-!
# What a structure report keeps of the files

A file's key in a structure report is the text of its path, and of several files with one key the
last one stays. So the numbers of a scan and the contents of its report agree exactly when no two
files share a key, which holds of all files whose names are texts and fails of others.
-/

namespace Triage.Scan

open Files

/-- What a file comes to in a structure scan in which files are read by `read`. -/
def recordFrom (rule : RouteRule) (read : Path → Except ParseError SourceFile) (p : Path) :
    Outcome FileRecord :=
  (p, (read p).map (·.record p.text rule))

/-- The files whose key is no later file's. -/
def keptFiles (files : List Path) : List Path := latest (·.text) files

/-- The files that a later one with their key replaces. -/
def lostFiles (files : List Path) : List Path := files.filter (· ∉ keptFiles files)

/-- No two files have one key. -/
def KeysDiffer (files : List Path) : Prop := ∀ p ∈ files, ∀ q ∈ files, p.text = q.text → p = q

variable {rule : RouteRule} {read : Path → Except ParseError SourceFile} {files : List Path}

theorem path_recordFrom (p : Path) : (recordOf (recordFrom rule read p)).path = p.text := by
  unfold recordFrom recordOf
  cases read p <;> rfl

theorem recordOf_recordFrom_ok {p : Path} {f : SourceFile} (h : read p = .ok f) :
    recordOf (recordFrom rule read p) = f.record p.text rule := by
  simp [recordFrom, recordOf, h, Except.map]

theorem recordOf_recordFrom_error {p : Path} {e : ParseError} (h : read p = .error e) :
    recordOf (recordFrom rule read p) = .empty p.text := by
  simp [recordFrom, recordOf, h, Except.map]

/-- The last records are those of the files that are kept. -/
theorem latest_records :
    latest (·.path) ((files.map (recordFrom rule read)).map recordOf) =
      (keptFiles files).map fun p => recordOf (recordFrom rule read p) := by
  rw [List.map_map, latest, List.pwFilter_map]
  simp only [Function.comp_apply, path_recordFrom]
  rfl

theorem keptFiles_subset {p : Path} (hp : p ∈ keptFiles files) : p ∈ files :=
  List.pwFilter_subset files hp

theorem perm_kept_lost (distinct : files.Nodup) :
    files.Perm (keptFiles files ++ lostFiles files) := by
  have hkept : (files.filter (· ∈ keptFiles files)).Perm (keptFiles files) := by
    refine (List.perm_ext_iff_of_nodup (distinct.filter _)
      (distinct.sublist (List.pwFilter_sublist files))).mpr fun p => ?_
    rw [List.mem_filter, decide_eq_true_iff]
    exact ⟨And.right, fun hp => ⟨keptFiles_subset hp, hp⟩⟩
  have hlost : lostFiles files = files.filter fun p => !decide (p ∈ keptFiles files) := by
    simp only [lostFiles, decide_not]
  rw [hlost]
  exact (List.filter_append_perm _ files).symm.trans (hkept.append_right _)

/-- A file is lost exactly when some key is that of two files. -/
theorem lostFiles_eq_nil_iff (distinct : files.Nodup) :
    lostFiles files = [] ↔ KeysDiffer files := by
  constructor
  · intro hlost p hp q hq hkey
    have hperm := perm_kept_lost distinct
    rw [hlost, List.append_nil] at hperm
    have hkept : ((keptFiles files).map (·.text)).Nodup :=
      List.pairwise_map.mpr (List.pairwise_pwFilter files)
    exact List.inj_on_of_nodup_map hkept (hperm.mem_iff.mp hp) (hperm.mem_iff.mp hq) hkey
  · intro hkeys
    rw [lostFiles, List.filter_eq_nil_iff]
    intro p hp
    obtain ⟨q, hq, hkey⟩ := exists_mem_latest Path.text hp
    obtain rfl := hkeys q (keptFiles_subset hq) p hp hkey
    rw [decide_eq_true_iff]
    exact not_not.mpr hq

/-- Paths that are texts are their own keys. -/
theorem keysDiffer_of_texts (texts : ∀ p ∈ files, ∃ s, p = .ofString s) : KeysDiffer files := by
  intro p hp q hq hkey
  obtain ⟨s, rfl⟩ := texts p hp
  obtain ⟨t, rfl⟩ := texts q hq
  rw [Path.text_ofString, Path.text_ofString] at hkey
  rw [hkey]

/-- The report of a scan of `files`. -/
def structureOf (rule : RouteRule) (read : Path → Except ParseError SourceFile)
    (files : List Path) : StructureReport × ScanStats :=
  gatherStructure (files.map (recordFrom rule read))

/-- A scan is the report of its source files, read from the file system. -/
theorem collectStructure_eq (options : ScanOptions) (fs : FileSystem) (root : Path) :
    collectStructure options fs root =
      (sourceFiles options fs root).map (structureOf options.rule (SourceFile.load fs)) := by
  unfold collectStructure
  cases sourceFiles options fs root <;> rfl

theorem fileCount_structureOf :
    (structureOf rule read files).1.fileCount = (keptFiles files).length := by
  rw [structureOf, report_gatherStructure, StructureReport.fileCount_insertAll, latest_records,
    List.length_map]

theorem recordCount_structureOf :
    (structureOf rule read files).1.recordCount =
      ((keptFiles files).map fun p => (recordOf (recordFrom rule read p)).count).sum := by
  rw [structureOf, report_gatherStructure, StructureReport.recordCount_insertAll, latest_records,
    List.map_map]
  rfl

theorem records_structureOf :
    (structureOf rule read files).2.records =
      (files.map fun p => (recordOf (recordFrom rule read p)).count).sum := by
  rw [structureOf, records_gatherStructure, List.map_map]
  rfl

theorem file?_structureOf {p : Path} (hp : p ∈ keptFiles files) :
    (structureOf rule read files).1.file? p.text = some (recordOf (recordFrom rule read p)) := by
  rw [structureOf, report_gatherStructure, ← @path_recordFrom rule read p]
  refine StructureReport.file?_insertAll ?_
  rw [latest_records]
  exact List.mem_map_of_mem hp

theorem fileCounts_structureOf :
    (structureOf rule read files).2.fileCounts =
      (files.length, files.countP fun p => (read p).isOk, files.countP fun p => !(read p).isOk) := by
  have hok : ∀ p, (recordFrom rule read p).2.isOk = (read p).isOk := by
    intro p
    unfold recordFrom
    cases read p <;> rfl
  rw [structureOf, fileCounts_gatherStructure]
  simp only [fileCounts, List.length_map, List.countP_map, Function.comp_def, hok]

/-- A report and the numbers of its scan when no file is lost. -/
structure KeepsEveryFile (rule : RouteRule) (read : Path → Except ParseError SourceFile)
    (files : List Path) (report : StructureReport) (stats : ScanStats) : Prop where
  fileCount : report.fileCount = stats.seen
  recordCount : report.recordCount = stats.records
  read_ok : ∀ p ∈ files, ∀ f, read p = .ok f → report.file? p.text =
    some ⟨p.text, f.tree.dependencies f.source, f.tree.calls f.source,
      f.tree.routes f.source rule⟩
  read_error : ∀ p ∈ files, ∀ e, read p = .error e →
    report.file? p.text = some ⟨p.text, [], [], []⟩

theorem keepsEveryFile_structureOf (distinct : files.Nodup) (keys : KeysDiffer files) :
    KeepsEveryFile rule read files (structureOf rule read files).1
      (structureOf rule read files).2 := by
  have hperm := perm_kept_lost distinct
  rw [(lostFiles_eq_nil_iff distinct).mpr keys, List.append_nil] at hperm
  have hseen : (structureOf rule read files).2.seen = files.length :=
    congrArg (·.1) (@fileCounts_structureOf rule read files)
  refine ⟨?_, ?_, ?_, ?_⟩
  · rw [fileCount_structureOf, hseen, hperm.length_eq]
  · rw [recordCount_structureOf, records_structureOf, (hperm.map _).sum_nat]
  · intro p hp f hf
    rw [file?_structureOf (hperm.mem_iff.mp hp), recordOf_recordFrom_ok hf]
    rfl
  · intro p hp e he
    rw [file?_structureOf (hperm.mem_iff.mp hp), recordOf_recordFrom_error he]
    rfl

/-- A file that is lost is found under its key as another file. -/
theorem exists_kept_of_lost {p : Path} (hp : p ∈ lostFiles files) :
    ∃ q ∈ keptFiles files, q ≠ p ∧ q.text = p.text := by
  obtain ⟨hmem, hlost⟩ := List.mem_filter.mp hp
  obtain ⟨q, hq, hkey⟩ := exists_mem_latest Path.text hmem
  refine ⟨q, hq, ?_, hkey⟩
  rintro rfl
  exact of_decide_eq_true hlost hq

/-- Every file is counted once, as read or as passed over, and the last file with each key is in
the report with exactly what was taken from it. What the numbers of the scan exceed the report by
are the files that a later one with their key replaces. So a report keeps every file exactly when
no two files share a key, as files do whose paths are texts. -/
theorem structure_keeps_files_iff (rule : RouteRule)
    (read : Path → Except ParseError SourceFile) (files : List Path) (distinct : files.Nodup) :
    (∀ options fs root, collectStructure options fs root =
        (sourceFiles options fs root).map (structureOf options.rule (SourceFile.load fs))) ∧
      ∃ report stats, structureOf rule read files = (report, stats) ∧
        stats.seen = files.length ∧ stats.analyzed = (files.countP fun p => (read p).isOk) ∧
        stats.analyzed + stats.skipped = stats.seen ∧
        report.fileCount + (lostFiles files).length = stats.seen ∧
        report.recordCount +
            ((lostFiles files).map fun p => (recordOf (recordFrom rule read p)).count).sum =
          stats.records ∧
        (∀ p ∈ keptFiles files,
          report.file? p.text = some (recordOf (recordFrom rule read p))) ∧
        (∀ p ∈ lostFiles files, ∃ q ∈ keptFiles files, q ≠ p ∧
          report.file? p.text = some (recordOf (recordFrom rule read q))) ∧
        (report.fileCount = stats.seen ↔ KeysDiffer files) ∧
        (KeepsEveryFile rule read files report stats ↔ KeysDiffer files) ∧
        ((∀ p ∈ files, ∃ s, p = .ofString s) → KeysDiffer files) := by
  refine ⟨collectStructure_eq, (structureOf rule read files).1, (structureOf rule read files).2, rfl,
    ?_⟩
  have hcounts := @fileCounts_structureOf rule read files
  simp only [ScanStats.fileCounts, Prod.mk.injEq] at hcounts
  obtain ⟨hseen, hanalyzed, -⟩ := hcounts
  have hperm := perm_kept_lost distinct
  have hlength : (structureOf rule read files).1.fileCount + (lostFiles files).length =
      (structureOf rule read files).2.seen := by
    rw [fileCount_structureOf, hseen, hperm.length_eq, List.length_append]
  have hkeeps : (structureOf rule read files).1.fileCount =
      (structureOf rule read files).2.seen ↔ KeysDiffer files := by
    rw [← lostFiles_eq_nil_iff distinct, ← List.length_eq_zero_iff]
    omega
  refine ⟨hseen, hanalyzed, ?_, hlength, ?_, fun p hp => file?_structureOf hp, ?_, hkeeps, ?_,
    keysDiffer_of_texts⟩
  · have hadd := fileCounts_add (files.map (recordFrom rule read))
    rwa [← fileCounts_gatherStructure] at hadd
  · rw [recordCount_structureOf, records_structureOf, (hperm.map _).sum_nat, List.map_append,
      List.sum_append]
  · intro p hp
    obtain ⟨q, hq, hne, hkey⟩ := exists_kept_of_lost hp
    exact ⟨q, hq, hne, hkey ▸ file?_structureOf hq⟩
  · exact ⟨fun h => hkeeps.mp h.fileCount, keepsEveryFile_structureOf distinct⟩

/-- A source file in `r` whose name is no text but for its end. -/
def namelessFile (b : UInt8) : Path := (Path.ofString "r").child (b :: nameOf ".py")

/-- Two source files whose names differ in a byte that begins no character: a call, and what is no
source. -/
def namelessSystem : FileSystem where
  entries := [([nameOf "r"], .directory), ([nameOf "r", 0xfe :: nameOf ".py"], .file "f(1)".toUTF8),
    ([nameOf "r", 0xff :: nameOf ".py"], .file "(".toUTF8)]

theorem sourceFiles_nameless : sourceFiles {} namelessSystem (.ofString "r") =
    .ok [namelessFile 0xfe, namelessFile 0xff] := by
  cbv

theorem load_nameless : ∃ f, SourceFile.load namelessSystem (namelessFile 0xfe) = .ok f ∧
    (f.record (namelessFile 0xfe).text .flask).count = 1 := by
  have hlanguage : Language.ofPath? (namelessFile 0xfe) = some .python := by cbv
  have hbytes : namelessSystem.readBytes (namelessFile 0xfe) = .ok "f(1)".toUTF8 := by cbv
  have htext : Text.decode? "f(1)".toUTF8 = some "f(1)" := by decide +kernel
  have hcheck : ((Python.parse? "f(1)").toOption.any fun t =>
      (t.record "f(1)" (namelessFile 0xfe).text .flask).count == 1) = true := by
    decide +kernel
  cases hparse : Python.parse? "f(1)" with
  | error line =>
    rw [hparse] at hcheck
    cases hcheck
  | ok tree =>
    rw [hparse] at hcheck
    exact ⟨_, load_eq_ok hlanguage hbytes htext hparse, beq_iff_eq.mp hcheck⟩

/-- The second file takes the place of the first one, whose call is counted and gone. -/
theorem structure_keeps_files_iff_nameless :
    [namelessFile 0xfe, namelessFile 0xff].Nodup ∧
    ∃ report stats,
      collectStructure {} namelessSystem (.ofString "r") = .ok (report, stats) ∧
      stats.seen = 2 ∧ report.fileCount = 1 ∧ stats.records = report.recordCount + 1 ∧
      ¬ KeysDiffer [namelessFile 0xfe, namelessFile 0xff] := by
  have distinct : [namelessFile 0xfe, namelessFile 0xff].Nodup := by decide +kernel
  have hlost : lostFiles [namelessFile 0xfe, namelessFile 0xff] = [namelessFile 0xfe] := by
    decide +kernel
  obtain ⟨f, hf, hcount⟩ := load_nameless
  obtain ⟨hcollect, report, stats, hrun, hseen, -, -, hfiles, hrecords, -, -, hkeys, -⟩ :=
    structure_keeps_files_iff .flask (SourceFile.load namelessSystem) _ distinct
  have hscan := hcollect {} namelessSystem (.ofString "r")
  rw [sourceFiles_nameless] at hscan
  rw [hlost, List.map_singleton, List.sum_singleton, recordOf_recordFrom_ok hf, hcount] at hrecords
  rw [hlost, hseen] at hfiles
  have hone : report.fileCount = 1 := Nat.succ.inj hfiles
  refine ⟨distinct, report, stats, hscan.trans (congrArg Except.ok hrun), hseen, hone,
    hrecords.symm, ?_⟩
  rw [← hkeys, hone, hseen]
  exact Nat.ne_of_lt (Nat.lt_succ_self 1)

end Triage.Scan
