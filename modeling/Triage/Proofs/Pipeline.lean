import Mathlib
import Triage.Pipeline
import Triage.Proofs.CallEvents
import Triage.Proofs.ReportText
import Triage.Proofs.Scan
import Triage.Proofs.Traversal

/-!
# What a scan asks for

A scan asks nothing unless its report was written and read back. Then it asks once, with the text
of the very report that was collected, and the answer is its result.
-/

namespace Triage

open Files Json Service

/-! ### Numbers in machine words -/

namespace Python.Tree

/-- The lines of a tree and the numbers of children are integers of 64 bits. -/
def FitsWords (t : Tree) : Prop :=
  ∀ n ∈ t.nodes, n.line ≤ maxWord ∧ n.children.length ≤ maxWord

theorem length_positionalArguments_le {t : Tree} (h : t.FitsWords) :
    t.positionalArguments.length ≤ maxWord := by
  unfold positionalArguments
  split
  · exact Nat.zero_le _
  · rename_i a ha
    split
    · exact (by decide : 1 ≤ maxWord)
    · calc (a.namedChildren.filter isPositional).length
          ≤ a.namedChildren.length := List.length_filter_le _ _
        _ ≤ a.children.length := List.length_filter_le _ _
        _ ≤ maxWord := (h a (child_mem_nodes ha)).2

theorem fitsWords_of_mem {t n : Tree} (h : t.FitsWords) (hn : n ∈ t.nodes) : n.FitsWords :=
  fun m hm => h m (mem_nodes_trans t hn hm)

theorem decoratorEvents_fitWords {source file : String} {t : Tree} {e : Event} (h : t.FitsWords)
    (he : e ∈ t.decoratorEvents source file) : e.FitsWords := by
  unfold decoratorEvents at he
  split at he
  · cases he
  · rename_i definition hdefinition
    split at he
    · cases he
    · split at he
      · cases he
      · obtain ⟨call, -, rfl⟩ := List.mem_map.mp he
        have hline := (h definition (child_mem_nodes hdefinition)).1
        exact ⟨fun n hn => Option.some.inj hn ▸ hline, trivial⟩

theorem eventsAt_fitWords {source file : String} {t : Tree} {e : Event} (h : t.FitsWords)
    (he : e ∈ t.eventsAt source file) : e.FitsWords := by
  have hline := (h t (self_mem_nodes t)).1
  unfold eventsAt at he
  split at he
  · rw [List.mem_singleton.mp he]
    exact ⟨fun n hn => Option.some.inj hn ▸ hline, length_positionalArguments_le h⟩
  · exact decoratorEvents_fitWords h he
  · split at he
    · rename_i a ha
      rw [List.mem_singleton.mp he]
      have hsame : a.line = t.line := line_of_attributeAccess? ha
      exact ⟨fun n hn => Option.some.inj hn ▸ hsame ▸ hline, trivial⟩
    · cases he
  · cases he

theorem events_fitWords {source file : String} {t : Tree} {e : Event} (h : t.FitsWords)
    (he : e ∈ t.events source file) : e.FitsWords := by
  obtain ⟨n, hn, hne⟩ := List.mem_flatMap.mp he
  exact eventsAt_fitWords (fitsWords_of_mem h hn) hne

end Python.Tree

namespace Scan

/-- The trees of the files below a root are no larger than a machine can count. -/
def FitsWords (options : ScanOptions) (fs : FileSystem) (root : Path) : Prop :=
  ∀ paths, sourceFiles options fs root = .ok paths → ∀ p ∈ paths, ∀ f,
    SourceFile.load fs p = .ok f → f.tree.FitsWords

theorem collectEvents_fitWords {options : ScanOptions} {fs : FileSystem} {root : Path}
    {report : Report} {stats : ScanStats} (h : FitsWords options fs root)
    (hcollect : collectEvents options fs root = .ok (report, stats)) :
    ∀ e ∈ report.analysis, e.FitsWords := by
  unfold collectEvents at hcollect
  cases hpaths : sourceFiles options fs root with
  | error _ =>
    rw [hpaths] at hcollect
    cases hcollect
  | ok paths =>
    rw [hpaths] at hcollect
    have hgathered : gatherEvents (paths.map (fileEvents fs)) = (report, stats) :=
      Except.ok.inj hcollect
    have hanalysis := analysis_gatherEvents (paths.map (fileEvents fs))
    rw [hgathered] at hanalysis
    intro e he
    rw [hanalysis] at he
    obtain ⟨o, ho, he⟩ := List.mem_flatMap.mp he
    obtain ⟨p, hp, rfl⟩ := List.mem_map.mp ho
    cases hload : SourceFile.load fs p with
    | error _ =>
      simp [fileEvents, eventsOf, hload, Except.map] at he
    | ok f =>
      simp only [fileEvents, eventsOf, hload, Except.map] at he
      exact Python.Tree.events_fitWords (h paths hpaths p hp f hload) he

end Scan

namespace Pipeline

variable {σ τ : Type}

/-- The same backend, with a list of what it was asked and what it answered. -/
def recording (b : Backend (World σ × τ)) : Backend (World σ × τ × List Exchange) where
  name := b.name
  answer r s :=
    let (o, w, t) := b.answer r (s.1, s.2.1)
    (o, w, t, s.2.2 ++ [⟨r, o⟩])

/-- A list beside a backend changes nothing for a scan. -/
theorem runScan_recording (root : Path) (s : Settings) (b : Backend (World σ × τ)) (w : World σ)
    (t : τ) (log : List Exchange) :
    runScan root s b w t =
      ((runScan root s (recording b) w (t, log)).1, (runScan root s (recording b) w (t, log)).2.1,
        (runScan root s (recording b) w (t, log)).2.2.1) := by
  unfold runScan
  rcases writeReport root s w with ⟨e | report, w'⟩
  · rfl
  · rfl

theorem storeReport_eq (report : Report) (path : Path) (w : World σ) :
    (storeReport report path w).1 = (report.store path w.files).1 ∧
      (storeReport report path w).2.files = (report.store path w.files).2 := by
  unfold storeReport
  rcases report.store path w.files with ⟨result, files⟩
  cases path.parent? <;> exact ⟨rfl, rfl⟩

/-- A report whose numbers fit in words is read back from where it was stored. -/
theorem load_storeReport {report : Report} {path : Path} {w w' : World σ}
    (hwords : ∀ e ∈ report.analysis, e.FitsWords)
    (h : storeReport report path w = (.ok (), w')) :
    Report.load w'.files path = .ok report := by
  obtain ⟨hresult, hfiles⟩ := storeReport_eq report path w
  rw [h] at hresult hfiles
  have hstored : report.store path w.files = (.ok (), w'.files) := Prod.ext hresult.symm hfiles.symm
  exact Report.load_of_readText hwords (Report.readText_of_store hstored)

/-- Where the report was read back, the answer to its request is what the scan comes to. -/
theorem runScan_of_written {root : Path} {s : Settings} {b : Backend (World σ × τ)}
    {w w' final : World σ} {report : Report} {o : Option Service.Outcome} {t t' : τ}
    (hwritten : writeReport root s w = (.ok report, w'))
    (hanswer : b.answer (s.request (promptOf report.promptText)) (w', t) = (o, final, t')) :
    runScan root s b w t = (o.map (·.mapError .noAssessment), final, t') := by
  simp only [runScan, hwritten, assess, hanswer]

theorem map_mapError_eq_ok {o : Option Service.Outcome} {a : Assessment} :
    o.map (·.mapError PipelineError.noAssessment) = some (.ok a) ↔ o = some (.ok a) := by
  match o with
  | none => simp
  | some (.error _) => simp [Except.mapError]
  | some (.ok _) => simp [Except.mapError]

/-- A scan that fails before it has a report to send asks nothing. Any other scan asks once, with
the text of the report that was collected and the settings of the service; the answer is its
result, and the report is in its file from then on, unless the backend changes the file. -/
theorem runScan_asks_once (root : Path) (s : Settings) (b : Backend (World σ × τ)) (w : World σ)
    (t : τ) (hwords : Scan.FitsWords s.scanOptions w.files root) :
    (∀ log, runScan root s b w t = ((runScan root s (recording b) w (t, log)).1,
      (runScan root s (recording b) w (t, log)).2.1,
      (runScan root s (recording b) w (t, log)).2.2.1)) ∧
    (∀ e, Scan.collectEvents s.scanOptions w.files root = .error e →
      runScan root s (recording b) w (t, []) = (some (.error (.notScanned root)), w, t, [])) ∧
    ∀ report stats, Scan.collectEvents s.scanOptions w.files root = .ok (report, stats) →
      (∀ e w', storeReport report s.report.path w = (.error e, w') →
        runScan root s (recording b) w (t, []) =
          (some (.error (.notWritten s.report.path)), w', t, [])) ∧
      ∀ w', storeReport report s.report.path w = (.ok (), w') →
        (∀ e, Report.load w'.files s.report.path = .error e →
          runScan root s (recording b) w (t, []) =
            (some (.error (.notRead s.report.path)), w', t, [])) ∧
        Report.load w'.files s.report.path = .ok report ∧
        ∃ request o final t', b.answer request (w', t) = (o, final, t') ∧
          request = ⟨instruction ++ report.promptText, some s.openai.model, s.openai.maxTokens,
            s.openai.temperature⟩ ∧
          runScan root s (recording b) w (t, []) =
            (o.map (·.mapError .noAssessment), final, t', [⟨request, o⟩]) ∧
          (∀ a, (runScan root s b w t).1 = some (.ok a) ↔ o = some (.ok a)) ∧
          (final.files.readText s.report.path = w'.files.readText s.report.path →
            Report.load (runScan root s b w t).2.1.files s.report.path = .ok report) := by
  refine ⟨runScan_recording root s b w t, ?_, ?_⟩
  · intro e hcollect
    simp only [runScan, writeReport, hcollect]
  · intro report stats hcollect
    constructor
    · intro e w' hstored
      simp only [runScan, writeReport, hcollect, hstored]
    · intro w' hstored
      have hload := load_storeReport (Scan.collectEvents_fitWords hwords hcollect) hstored
      have hwritten : writeReport root s w = (.ok report, w') := by
        simp only [writeReport, hcollect, hstored, hload]
      refine ⟨?_, hload, s.request (promptOf report.promptText), ?_⟩
      · intro e hfailed
        simp only [runScan, writeReport, hcollect, hstored, hfailed]
      · rcases hanswer : b.answer (s.request (promptOf report.promptText)) (w', t) with
          ⟨o, final, t'⟩
        have hrecorded : (recording b).answer (s.request (promptOf report.promptText))
            (w', t, []) = (o, final, t', [⟨s.request (promptOf report.promptText), o⟩]) := by
          simp only [recording, hanswer, List.nil_append]
        have hrun := runScan_of_written hwritten hanswer
        refine ⟨o, final, t', rfl, rfl, runScan_of_written hwritten hrecorded, ?_, ?_⟩
        · intro a
          rw [hrun]
          exact map_mapError_eq_ok
        · intro hkept
          rw [hrun]
          have hsame : Report.load final.files s.report.path =
              Report.load w'.files s.report.path := by
            simp only [Report.load, hkept]
          exact hsame.trans hload

/-- One call in one file. -/
def oneCallWorld : World Unit where
  files := { entries := [([nameOf "r"], .directory), ([nameOf "r", nameOf "a.py"],
    .file "f(1)".toUTF8)] }
  outside := ()

theorem sourceFiles_oneCall :
    Scan.sourceFiles {} oneCallWorld.files (.ofString "r") = .ok [.ofString "r/a.py"] := by
  cbv

def oneCallReport : Report where
  analysis := [⟨"r/a.py", some 1, .functionCall, .call "f" 1⟩]

theorem load_oneCall : ∃ f, SourceFile.load oneCallWorld.files (.ofString "r/a.py") = .ok f ∧
    f.tree.FitsWords ∧ f.events (Path.ofString "r/a.py").text = oneCallReport.analysis := by
  have hlanguage : Language.ofPath? (.ofString "r/a.py") = some .python := by cbv
  have hbytes : oneCallWorld.files.readBytes (.ofString "r/a.py") = .ok "f(1)".toUTF8 := by cbv
  have htext : Text.decode? "f(1)".toUTF8 = some "f(1)" := by decide +kernel
  have hcheck : ((Python.parse? "f(1)").toOption.any fun t =>
      decide (t.events "f(1)" (Path.ofString "r/a.py").text = oneCallReport.analysis) &&
        t.nodes.all fun n => decide (n.line ≤ maxWord ∧ n.children.length ≤ maxWord)) = true := by
    decide +kernel
  cases hparse : Python.parse? "f(1)" with
  | error line =>
    rw [hparse] at hcheck
    cases hcheck
  | ok tree =>
    rw [hparse] at hcheck
    obtain ⟨hevents, hnodes⟩ := Bool.and_eq_true_iff.mp hcheck
    refine ⟨_, Scan.load_eq_ok hlanguage hbytes htext hparse, ?_, of_decide_eq_true hevents⟩
    intro n hn
    exact of_decide_eq_true (List.all_eq_true.mp hnodes n hn)

theorem fitsWords_oneCall : Scan.FitsWords {} oneCallWorld.files (.ofString "r") := by
  intro paths hpaths p hp f hf
  rw [sourceFiles_oneCall] at hpaths
  obtain rfl := Except.ok.inj hpaths
  obtain rfl := List.mem_singleton.mp hp
  obtain ⟨g, hg, hfits, -⟩ := load_oneCall
  obtain rfl := Except.ok.inj (hg.symm.trans hf)
  exact hfits

theorem collectEvents_oneCall : Scan.collectEvents {} oneCallWorld.files (.ofString "r") =
    .ok (oneCallReport, ⟨1, 1, 0, 1⟩) := by
  obtain ⟨f, hf, -, hevents⟩ := load_oneCall
  have hfile : Scan.fileEvents oneCallWorld.files (.ofString "r/a.py") =
      (.ofString "r/a.py", .ok oneCallReport.analysis) := by
    rw [Scan.fileEvents, hf, ← hevents]
    rfl
  simp only [Scan.collectEvents, sourceFiles_oneCall, bind, Except.bind, pure, Except.pure,
    List.map_cons, List.map_nil, hfile]
  rfl

/-- Where reports go when the settings do not say. -/
def usualPath : Path := .ofString "outputs/analysis_report.json"

/-- The lines that are sent for the one call. -/
def oneCallPrompt : List String :=
  ["As a security expert, find vulnerabilities in the following report:",
    "\x7b",
    "  \"analysis\": [",
    "    \x7b",
    "      \"file\": \"r/a.py\",",
    "      \"line\": 1,",
    "      \"type\": \"Function Call\",",
    "      \"details\": \x7b",
    "        \"function\": \"f\",",
    "        \"args\": 1",
    "      \x7d",
    "    \x7d",
    "  ]",
    "\x7d"]

theorem promptOf_oneCall :
    instruction ++ oneCallReport.promptText = "\n".intercalate oneCallPrompt := by
  decide +kernel

/-- A scan of the one call, with a backend whose answer is to be trimmed. -/
theorem runScan_asks_once_oneCall :
    Scan.FitsWords {} oneCallWorld.files (.ofString "r") ∧
    ∃ w' final,
      runScan (.ofString "r") {} (recording Backend.mock.beside) oneCallWorld
          (.ofText " bad\n", []) =
        (some (.ok ⟨"bad", "mock-model", ⟨10, 20⟩⟩), w', final,
          [⟨⟨"\n".intercalate oneCallPrompt, some "gpt-4o", none, none⟩,
            some (.ok ⟨"bad", "mock-model", ⟨10, 20⟩⟩)⟩]) ∧
      Report.load w'.files usualPath = .ok oneCallReport := by
  have hmade : Report.withParent oneCallWorld.files usualPath =
      .ok ⟨oneCallWorld.files.entries ++ [([nameOf "outputs"], .directory)], []⟩ := by cbv
  have hplace : FileSystem.locate
      ⟨oneCallWorld.files.entries ++ [([nameOf "outputs"], .directory)], []⟩ true usualPath =
      .ok ([nameOf "outputs", nameOf "analysis_report.json"], none) := by cbv
  have hstore := Report.store_of_locate oneCallReport hmade hplace (by cbv)
  have hstored : storeReport oneCallReport usualPath oneCallWorld = (.ok (), _) :=
    Prod.ext ((storeReport_eq oneCallReport _ oneCallWorld).1.trans (by rw [hstore])) rfl
  obtain ⟨-, -, hscan⟩ := runScan_asks_once (.ofString "r") {} Backend.mock.beside oneCallWorld
    (.ofText " bad\n") fitsWords_oneCall
  obtain ⟨-, hload, request, o, final, t', hanswer, rfl, hrun, -, -⟩ :=
    (hscan oneCallReport _ collectEvents_oneCall).2 _ hstored
  have hbad : Assessment.trimmed " bad\n" "mock-model" ⟨10, 20⟩ =
      ⟨"bad", "mock-model", ⟨10, 20⟩⟩ := by cbv
  obtain ⟨ho, hrest⟩ := Prod.mk.inj hanswer
  obtain ⟨rfl, -⟩ := Prod.mk.inj hrest
  obtain rfl : some (.ok ⟨"bad", "mock-model", ⟨10, 20⟩⟩) = o := hbad ▸ ho
  rw [promptOf_oneCall] at hrun
  exact ⟨fitsWords_oneCall, _, t', hrun, hload⟩

end Pipeline

end Triage
