import Mathlib
import Triage.Proofs.CallEvents
import Triage.Proofs.Scan

/-!
# Call records and events agree

The records of calls and the stream of events come from two walks of a file and two scans of a
repository. They say the same about every call that has a record.
-/

namespace Triage.Scan

open Files Python

theorem fileRecord_error_iff (options : ScanOptions) (fs : FileSystem) (p : Path)
    (e : ParseError) :
    (fileEvents fs p).2 = .error e ↔ (fileRecord options fs p).2 = .error e := by
  unfold fileEvents fileRecord
  cases SourceFile.load fs p <;> simp [Except.map]

theorem fileCounts_agree (options : ScanOptions) (fs : FileSystem) (paths : List Path) :
    fileCounts (paths.map (fileEvents fs)) = fileCounts (paths.map (fileRecord options fs)) := by
  have hok : ∀ p, (fileEvents fs p).2.isOk = (fileRecord options fs p).2.isOk := by
    intro p
    unfold fileEvents fileRecord
    cases SourceFile.load fs p <;> rfl
  simp [fileCounts, List.countP_map, Function.comp_def, hok]

theorem file_of_mem_eventsOf {fs : FileSystem} {p : Path} {e : Event}
    (h : e ∈ eventsOf (fileEvents fs p)) : e.file = p.text := by
  unfold fileEvents eventsOf at h
  cases hl : SourceFile.load fs p with
  | error _ =>
    rw [hl] at h
    cases h
  | ok f =>
    rw [hl] at h
    exact Tree.file_of_mem_events h

/-- The events under a file's name are its own when no other file has that name. -/
theorem events_under_name (fs : FileSystem) (paths : List Path)
    (distinct : (paths.map (·.text)).Nodup) {p : Path} (hp : p ∈ paths) :
    ((paths.map (fileEvents fs)).flatMap eventsOf).filter (·.file == p.text) =
      eventsOf (fileEvents fs p) := by
  induction paths with
  | nil => cases hp
  | cons q paths ih =>
    obtain ⟨hq, hpaths⟩ := List.nodup_cons.mp distinct
    rw [List.map_cons, List.flatMap_cons, List.filter_append]
    rcases List.mem_cons.mp hp with rfl | hp
    · have hown : (eventsOf (fileEvents fs p)).filter (·.file == p.text) =
          eventsOf (fileEvents fs p) := by
        rw [List.filter_eq_self]
        intro e he
        simp [file_of_mem_eventsOf he]
      have hothers : ((paths.map (fileEvents fs)).flatMap eventsOf).filter
          (·.file == p.text) = [] := by
        rw [List.filter_eq_nil_iff]
        intro e he hfile
        obtain ⟨o, ho, he⟩ := List.mem_flatMap.mp he
        obtain ⟨r, hr, rfl⟩ := List.mem_map.mp ho
        have hname : r.text = p.text := (file_of_mem_eventsOf he).symm.trans (by simpa using hfile)
        exact hq (List.mem_map.mpr ⟨r, hr, hname⟩)
      rw [hown, hothers, List.append_nil]
    · have hother : (eventsOf (fileEvents fs q)).filter (·.file == p.text) = [] := by
        rw [List.filter_eq_nil_iff]
        intro e he hfile
        have hname : p.text = q.text :=
          (by simpa using hfile : e.file = p.text).symm.trans (file_of_mem_eventsOf he)
        exact hq (List.mem_map.mpr ⟨p, hp, hname⟩)
      rw [hother, ih hpaths hp, List.nil_append]

theorem recordOf_path (options : ScanOptions) (fs : FileSystem) (p : Path) :
    (recordOf (fileRecord options fs p)).path = p.text := by
  unfold fileRecord recordOf
  cases SourceFile.load fs p <;> rfl

/-- The calls under a file's name are its own when no other file has that name. -/
theorem calls_under_name (options : ScanOptions) (fs : FileSystem) (paths : List Path)
    (distinct : (paths.map (·.text)).Nodup) {p : Path} (hp : p ∈ paths) :
    (StructureReport.insertAll {} ((paths.map (fileRecord options fs)).map
      recordOf)).functionCalls.get? p.text = some (recordOf (fileRecord options fs p)).calls := by
  have hpath := recordOf_path options fs p
  have hmem : recordOf (fileRecord options fs p) ∈
      (paths.map (fileRecord options fs)).map recordOf :=
    List.mem_map_of_mem (List.mem_map_of_mem hp)
  have hkeys : (((paths.map (fileRecord options fs)).map recordOf).map (·.path)) =
      paths.map (·.text) := by
    rw [List.map_map, List.map_map]
    exact List.map_congr_left fun q _ => recordOf_path options fs q
  rw [← hpath]
  exact StructureReport.functionCalls_insertAll {} _ (hkeys ▸ distinct) hmem

/-- In every tree each Function Call event belongs to one call node, and the events of the call
nodes with a simple callee are the records of calls. So two scans of the same files read and pass
over the same ones, and of a file that was read, the records in one report are those events in the
other. -/
theorem calls_agree_with_events :
    (∀ (source file : String) (t : Tree),
      (t.events source file).filter (·.kind == .functionCall) =
        t.callNodes.map (·.callEvent source file) ∧
      t.simpleCallEvents source (t.events source file) =
        (t.calls source).map fun r => Event.functionCall file r.line r.name r.args) ∧
    ∀ (options : ScanOptions) (fs : FileSystem) (root : Path),
      (∀ e, collectEvents options fs root = .error e ↔
        collectStructure options fs root = .error e) ∧
      ∀ paths, sourceFiles options fs root = .ok paths →
        ∃ report stats structureReport stats',
          collectEvents options fs root = .ok (report, stats) ∧
          collectStructure options fs root = .ok (structureReport, stats') ∧
          stats.fileCounts = stats'.fileCounts ∧
          (∀ p ∈ paths, ∀ e, (fileEvents fs p).2 = .error e ↔
            (fileRecord options fs p).2 = .error e) ∧
          ((paths.map (·.text)).Nodup → ∀ p ∈ paths, ∀ f, SourceFile.load fs p = .ok f →
            ∃ calls, structureReport.functionCalls.get? p.text = some calls ∧
              f.tree.simpleCallEvents f.source
                  (report.analysis.filter (·.file == p.text)) =
                calls.map fun r => Event.functionCall p.text r.line r.name r.args) := by
  refine ⟨fun source file t =>
    ⟨t.functionCalls_events source file, t.simpleCallEvents_events source file⟩, ?_⟩
  intro options fs root
  constructor
  · intro e
    unfold collectEvents collectStructure
    cases sourceFiles options fs root <;> simp [bind, Except.bind, pure, Except.pure]
  · intro paths hpaths
    refine ⟨(gatherEvents (paths.map (fileEvents fs))).1,
      (gatherEvents (paths.map (fileEvents fs))).2,
      (gatherStructure (paths.map (fileRecord options fs))).1,
      (gatherStructure (paths.map (fileRecord options fs))).2, ?_, ?_, ?_, ?_, ?_⟩
    · simp [collectEvents, hpaths, bind, Except.bind, pure, Except.pure]
    · simp [collectStructure, hpaths, bind, Except.bind, pure, Except.pure]
    · rw [fileCounts_gatherEvents, fileCounts_gatherStructure]
      exact fileCounts_agree options fs paths
    · exact fun p _ e => fileRecord_error_iff options fs p e
    · intro distinct p hp f hf
      have hrecord : recordOf (fileRecord options fs p) = f.record p.text options.rule := by
        simp [fileRecord, recordOf, hf, Except.map]
      have hevents : eventsOf (fileEvents fs p) = f.events p.text := by
        simp [fileEvents, eventsOf, hf, Except.map]
      refine ⟨f.tree.calls f.source, ?_, ?_⟩
      · rw [report_gatherStructure, calls_under_name options fs paths distinct hp, hrecord]
        rfl
      · rw [analysis_gatherEvents, events_under_name fs paths distinct hp, hevents]
        exact f.tree.simpleCallEvents_events f.source p.text

/-- A call of a call next to a file that cannot be read as source. -/
def nestedCallSystem : FileSystem where
  entries := [([nameOf "r"], .directory), ([nameOf "r", nameOf "a.py"], .file "f()()".toUTF8),
    ([nameOf "r", nameOf "b.py"], .file "(".toUTF8)]

theorem sourceFiles_nestedCall : sourceFiles {} nestedCallSystem (.ofString "r") =
    .ok [.ofString "r/a.py", .ofString "r/b.py"] := by
  cbv

theorem load_nestedCall :
    ∃ f, SourceFile.load nestedCallSystem (.ofString "r/a.py") = .ok f := by
  have hlanguage : Language.ofPath? (.ofString "r/a.py") = some .python := by cbv
  have hbytes : nestedCallSystem.readBytes (.ofString "r/a.py") = .ok "f()()".toUTF8 := by cbv
  have htext : Text.decode? "f()()".toUTF8 = some "f()()" := by decide +kernel
  have hparse : (Python.parse? "f()()").isOk = true := by decide +kernel
  cases ht : Python.parse? "f()()" with
  | error _ => rw [ht] at hparse; cases hparse
  | ok tree => exact ⟨_, load_eq_ok hlanguage hbytes htext ht⟩

theorem calls_agree_with_events_nestedCall :
    sourceFiles {} nestedCallSystem (.ofString "r") =
        .ok [.ofString "r/a.py", .ofString "r/b.py"] ∧
      ([Path.ofString "r/a.py", Path.ofString "r/b.py"].map (·.text)).Nodup ∧
      ∃ f, SourceFile.load nestedCallSystem (.ofString "r/a.py") = .ok f ∧
      ∃ report stats structureReport stats',
        collectEvents {} nestedCallSystem (.ofString "r") = .ok (report, stats) ∧
        collectStructure {} nestedCallSystem (.ofString "r") = .ok (structureReport, stats') ∧
        stats.fileCounts = stats'.fileCounts ∧
        ∃ calls, structureReport.functionCalls.get? (Path.ofString "r/a.py").text = some calls ∧
          f.tree.simpleCallEvents f.source
              (report.analysis.filter (·.file == (Path.ofString "r/a.py").text)) =
            calls.map fun r =>
              Event.functionCall (Path.ofString "r/a.py").text r.line r.name r.args := by
  have distinct : ([Path.ofString "r/a.py", Path.ofString "r/b.py"].map (·.text)).Nodup := by
    decide +kernel
  obtain ⟨f, hf⟩ := load_nestedCall
  obtain ⟨report, stats, structureReport, stats', hevents, hstructure, hcounts, -, hcalls⟩ :=
    (calls_agree_with_events.2 {} nestedCallSystem (.ofString "r")).2 _ sourceFiles_nestedCall
  exact ⟨sourceFiles_nestedCall, distinct, f, hf, report, stats, structureReport, stats', hevents,
    hstructure, hcounts, hcalls distinct _ List.mem_cons_self f hf⟩

end Triage.Scan
