import Mathlib
import Triage.Proofs.PathMap
import Triage.Scan

/-!
# What a scan gathers

Both kinds of scan fold over the outcomes of the same files. The events of a scan are those of its
files one after the other, its records are inserted one after the other, and both count files alike.
-/

namespace Triage

open Files

/-- The numbers of files found, read and passed over. -/
def ScanStats.fileCounts (s : ScanStats) : Nat × Nat × Nat := (s.seen, s.analyzed, s.skipped)

namespace Scan

/-- What a file adds to the events of a scan. -/
def eventsOf (o : Outcome (List Event)) : List Event :=
  match o.2 with
  | .ok es => es
  | .error _ => []

/-- What a file adds to the structure of a scan. -/
def recordOf (o : Outcome FileRecord) : FileRecord :=
  match o.2 with
  | .ok r => r
  | .error _ => .empty o.1.text

/-- The same numbers, from the outcomes. -/
def fileCounts {α : Type} (os : List (Outcome α)) : Nat × Nat × Nat :=
  (os.length, os.countP (·.2.isOk), os.countP (!·.2.isOk))

theorem analysis_foldl_addEvents (os : List (Outcome (List Event))) (acc : Report × ScanStats) :
    (os.foldl addEvents acc).1.analysis = acc.1.analysis ++ os.flatMap eventsOf := by
  induction os generalizing acc with
  | nil => simp
  | cons o os ih =>
    obtain ⟨p, r⟩ := o
    rw [List.foldl_cons, ih]
    cases r <;> simp [addEvents, eventsOf, Report.extend]

theorem analysis_gatherEvents (os : List (Outcome (List Event))) :
    (gatherEvents os).1.analysis = os.flatMap eventsOf :=
  analysis_foldl_addEvents os ({}, {})

theorem report_foldl_addRecord (os : List (Outcome FileRecord))
    (acc : StructureReport × ScanStats) :
    (os.foldl addRecord acc).1 = acc.1.insertAll (os.map recordOf) := by
  induction os generalizing acc with
  | nil => rfl
  | cons o os ih =>
    obtain ⟨p, r⟩ := o
    rw [List.foldl_cons, ih, List.map_cons, StructureReport.insertAll, StructureReport.insertAll,
      List.foldl_cons]
    cases r <;> rfl

theorem report_gatherStructure (os : List (Outcome FileRecord)) :
    (gatherStructure os).1 = StructureReport.insertAll {} (os.map recordOf) :=
  report_foldl_addRecord os ({}, {})

/-- A scan that counts a file as read exactly when its outcome is a success. -/
theorem fileCounts_foldl {α β : Type} (add : β × ScanStats → Outcome α → β × ScanStats)
    (counts : ∀ acc o, (add acc o).2.fileCounts =
      (acc.2.seen + 1, acc.2.analyzed + o.2.isOk.toNat, acc.2.skipped + (!o.2.isOk).toNat))
    (os : List (Outcome α)) (acc : β × ScanStats) :
    (os.foldl add acc).2.fileCounts =
      (acc.2.seen + (fileCounts os).1, acc.2.analyzed + (fileCounts os).2.1,
        acc.2.skipped + (fileCounts os).2.2) := by
  induction os generalizing acc with
  | nil => rfl
  | cons o os ih =>
    have hstep := counts acc o
    simp only [ScanStats.fileCounts, Prod.mk.injEq] at hstep
    obtain ⟨hseen, hread, hpassed⟩ := hstep
    rw [List.foldl_cons, ih, hseen, hread, hpassed]
    cases h : o.2.isOk <;> simp [fileCounts, h] <;> omega

theorem fileCounts_gatherEvents (os : List (Outcome (List Event))) :
    (gatherEvents os).2.fileCounts = fileCounts os := by
  have h := fileCounts_foldl addEvents ?_ os ({}, {})
  · simpa [gatherEvents] using h
  · rintro acc ⟨p, r⟩
    cases r <;> rfl

theorem fileCounts_gatherStructure (os : List (Outcome FileRecord)) :
    (gatherStructure os).2.fileCounts = fileCounts os := by
  have h := fileCounts_foldl addRecord ?_ os ({}, {})
  · simpa [gatherStructure] using h
  · rintro acc ⟨p, r⟩
    cases r <;> rfl

/-- A file is read or passed over. -/
theorem fileCounts_add {α : Type} (os : List (Outcome α)) :
    (fileCounts os).2.1 + (fileCounts os).2.2 = (fileCounts os).1 := by
  simpa [fileCounts] using (List.length_eq_countP_add_countP (l := os) (·.2.isOk)).symm

/-- Every event that is counted is in the report. -/
theorem records_gatherEvents (os : List (Outcome (List Event))) :
    (gatherEvents os).2.records = (gatherEvents os).1.length := by
  have h : ∀ acc : Report × ScanStats, acc.2.records = acc.1.length →
      (os.foldl addEvents acc).2.records = (os.foldl addEvents acc).1.length := by
    induction os with
    | nil => exact fun acc hacc => hacc
    | cons o os ih =>
      intro acc hacc
      obtain ⟨p, r⟩ := o
      refine ih _ ?_
      cases r with
      | error e => exact hacc
      | ok es => simp [addEvents, ScanStats.addFile, Report.extend, Report.length, hacc]
  exact h ({}, {}) rfl

theorem records_foldl_addRecord (os : List (Outcome FileRecord))
    (acc : StructureReport × ScanStats) :
    (os.foldl addRecord acc).2.records =
      acc.2.records + (os.map fun o => (recordOf o).count).sum := by
  induction os generalizing acc with
  | nil => rfl
  | cons o os ih =>
    obtain ⟨p, r⟩ := o
    rw [List.foldl_cons, ih, List.map_cons, List.sum_cons, ← Nat.add_assoc]
    cases r <;> rfl

theorem records_gatherStructure (os : List (Outcome FileRecord)) :
    (gatherStructure os).2.records = (os.map fun o => (recordOf o).count).sum :=
  (records_foldl_addRecord os ({}, {})).trans (Nat.zero_add _)

theorem collectEvents_of_files {options : ScanOptions} {fs : FileSystem} {root : Path}
    {files : List Path} (h : sourceFiles options fs root = .ok files) :
    collectEvents options fs root = .ok (gatherEvents (files.map (fileEvents fs))) := by
  simp only [collectEvents, h, bind, Except.bind, pure, Except.pure]

theorem collectStructure_of_files {options : ScanOptions} {fs : FileSystem} {root : Path}
    {files : List Path} (h : sourceFiles options fs root = .ok files) :
    collectStructure options fs root =
      .ok (gatherStructure (files.map (fileRecord options fs))) := by
  simp only [collectStructure, h, bind, Except.bind, pure, Except.pure]

theorem ofText_eq_ok {text : String} {tree : Python.Tree} (h : Python.parse? text = .ok tree) :
    SourceFile.ofText text = .ok ⟨.python, tree, text, none⟩ := by
  unfold SourceFile.ofText
  rw [h]

theorem load_eq_ok {fs : FileSystem} {p : Path} {language : Language} {bytes : ByteArray}
    {text : String} {tree : Python.Tree} (hlanguage : Language.ofPath? p = some language)
    (hbytes : fs.readBytes p = .ok bytes) (htext : Text.decode? bytes = some text)
    (htree : Python.parse? text = .ok tree) :
    SourceFile.load fs p = .ok ⟨.python, tree, text, some p.text⟩ := by
  simp only [SourceFile.load, hlanguage, hbytes, htext, ofText_eq_ok htree, Except.map]

end Scan

end Triage
