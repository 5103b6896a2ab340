import Triage.Command
import Triage.Proofs.Files.Way
import Triage.Proofs.Pipeline
import Triage.Proofs.Retry

/-!
# What a run does on the way

Between the checkout and its end a run makes directories, writes files and sends requests. None of
that takes a directory away or clones anything, and a request leaves all files alone.
-/

namespace Triage

open Files Service

/-- An effect that takes nothing away: a directory or a file is made, or a request is sent. -/
def Effect.isWork : Effect → Bool
  | makeDirectory _ | writeFile _ | send _ => true
  | _ => false

variable {σ : Type} {w w' w'' : World σ}

/-- What was done from `w` to `w'` is work, and the directories are where they were. -/
structure Works (w w' : World σ) : Prop where
  keeps : w.files.Keeps w'.files
  effects : ∃ es, w'.effects = w.effects ++ es ∧ ∀ e ∈ es, e.isWork = true

theorem Works.refl (w : World σ) : Works w w where
  keeps := .refl w.files
  effects := ⟨[], (List.append_nil _).symm, List.forall_mem_nil _⟩

theorem Works.trans (h : Works w w') (h' : Works w' w'') : Works w w'' where
  keeps := h.keeps.trans h'.keeps
  effects := by
    obtain ⟨es, hes, hwork⟩ := h.effects
    obtain ⟨es', hes', hwork'⟩ := h'.effects
    refine ⟨es ++ es', by rw [hes', hes, List.append_assoc], ?_⟩
    intro e he
    exact (List.mem_append.mp he).elim (hwork e) (hwork' e)

theorem Works.isWork_of_mem (h : Works w w') (hnone : w.effects = []) {e : Effect}
    (he : e ∈ w'.effects) : e.isWork = true := by
  obtain ⟨es, heffects, hwork⟩ := h.effects
  rw [heffects, hnone, List.nil_append] at he
  exact hwork e he

theorem works_step {e : Effect} (hkeeps : w.files.Keeps w'.files)
    (hnoted : w'.effects = w.effects ++ [e]) (he : e.isWork = true) : Works w w' where
  keeps := hkeeps
  effects := ⟨[e], hnoted, List.forall_mem_singleton.mpr he⟩

theorem works_ensureDirectory (p : Path) (w : World σ) : Works w (w.ensureDirectory p).2 := by
  unfold World.ensureDirectory
  split
  · rename_i files hmade
    exact works_step (FileSystem.keeps_of_ensureDirectory hmade) rfl rfl
  · exact works_step (.refl w.files) rfl rfl

theorem works_writeText (p : Path) (s : String) (w : World σ) : Works w (w.writeText p s).2 := by
  unfold World.writeText
  split
  · rename_i files hwritten
    exact works_step (FileSystem.keeps_of_writeText hwritten) rfl rfl
  · exact works_step (.refl w.files) rfl rfl

theorem works_startLog (s : Settings) (place : Option Path) (day : String) (w : World σ) :
    Works w (startLog s place day w) := by
  unfold startLog
  split
  · exact .refl w
  · rename_i dir _
    have hmade := works_ensureDirectory dir w
    split
    · rename_i hfailed
      rwa [hfailed] at hmade
    · rename_i hdone
      rw [hdone] at hmade
      dsimp only
      split
      · exact hmade.trans (works_step (.refl _) rfl rfl)
      · exact hmade.trans (works_writeText _ _ _)

/-- Storing a report makes directories and a file, also when it fails halfway. -/
theorem Report.keeps_store (r : Report) (p : Path) (fs : FileSystem) :
    fs.Keeps (r.store p fs).2 := by
  unfold Report.store withParent
  split
  · rename_i hfailed
    exact .refl fs
  · rename_i made hmade
    have hkeeps : fs.Keeps made := by
      split at hmade
      · exact FileSystem.keeps_of_ensureDirectory hmade
      · exact Except.ok.inj hmade ▸ .refl fs
    split
    · exact hkeeps
    · rename_i written hwritten
      exact hkeeps.trans (FileSystem.keeps_of_writeText hwritten)

namespace Pipeline

theorem works_storeReport (r : Report) (path : Path) (w : World σ) :
    Works w (storeReport r path w).2 := by
  have hkeeps := r.keeps_store path w.files
  unfold storeReport
  rcases hstored : r.store path w.files with ⟨result, files⟩
  rw [hstored] at hkeeps
  cases path.parent? with
  | none => exact works_step hkeeps rfl rfl
  | some parent =>
    have hmade : Works w (w.note (.makeDirectory parent)) := works_step (.refl w.files) rfl rfl
    exact hmade.trans (works_step hkeeps rfl rfl)

theorem works_writeReport (root : Path) (s : Settings) (w : World σ) :
    Works w (writeReport root s w).2 := by
  unfold writeReport
  split
  · exact .refl w
  · rename_i report _ _
    have hstored := works_storeReport report s.report.path w
    split
    · rename_i hfailed
      rwa [hfailed] at hstored
    · rename_i hdone
      rw [hdone] at hstored
      split
      · exact hstored
      · exact hstored

end Pipeline

/-- A backend for the service has a key, and a client. -/
theorem serviceBackend_eq_ok {around : Surroundings σ} {settings : ServiceSettings}
    {b : Backend (World σ × List Exchange)} (hb : serviceBackend around settings = .ok b) :
    settings.apiKey.isEmpty = false ∧ around.client settings.timeout = .ok () ∧
      ∃ service, Chat.backend settings (World.transport around) = .ok service ∧
        b = service.logging := by
  unfold serviceBackend at hb
  cases hservice : Chat.backend settings (World.transport around) with
  | error f =>
    rw [hservice] at hb
    cases hb
  | ok service =>
    cases hclient : around.client settings.timeout with
    | error reason =>
      rw [hservice, hclient] at hb
      cases hb
    | ok u =>
      rw [hservice, hclient] at hb
      have hkey : settings.apiKey.isEmpty = false := by
        rw [← Bool.not_eq_true]
        intro hempty
        rw [Chat.backend, if_pos hempty] at hservice
        cases hservice
      exact ⟨hkey, rfl, service, rfl, (Except.ok.inj hb).symm⟩

theorem exists_serviceBackend {around : Surroundings σ} {settings : ServiceSettings}
    (hkey : settings.apiKey.isEmpty = false) (hclient : around.client settings.timeout = .ok ()) :
    ∃ b, serviceBackend around settings = .ok b := by
  rw [serviceBackend, Chat.backend, if_neg (Bool.eq_false_iff.mp hkey), hclient]
  exact ⟨_, rfl⟩

/-- The service only sends requests. -/
theorem works_answer {around : Surroundings σ} {settings : ServiceSettings}
    {b : Backend (World σ × List Exchange)} (hb : serviceBackend around settings = .ok b)
    (r : Request) (w : World σ) (log : List Exchange) :
    (b.answer r (w, log)).2.1.files = w.files ∧ Works w (b.answer r (w, log)).2.1 := by
  obtain ⟨hkey, -, service, hservice, rfl⟩ := serviceBackend_eq_ok hb
  rw [Chat.backend, if_neg (Bool.eq_false_iff.mp hkey)] at hservice
  obtain rfl := Except.ok.inj hservice
  refine retry_state (P := fun w' : World σ => w'.files = w.files ∧ Works w w') ?_ _
    ⟨rfl, .refl w⟩
  rintro w' ⟨hfiles, hworks⟩
  unfold Chat.attempt
  split
  · have hsent : Works w' (World.send around (Chat.post settings r) w').2 :=
      works_step (.refl w'.files) rfl rfl
    exact ⟨hfiles, hworks.trans hsent⟩
  · exact ⟨hfiles, hworks⟩

/-- A scan with the service works, and its request leaves the files as the report left them. -/
theorem Pipeline.works_runScan {around : Surroundings σ} {settings : ServiceSettings}
    {b : Backend (World σ × List Exchange)} (hb : serviceBackend around settings = .ok b)
    (root : Path) (s : Settings) (w : World σ) (log : List Exchange) :
    (runScan root s b w log).2.1.files = (writeReport root s w).2.files ∧
      Works w (runScan root s b w log).2.1 := by
  have hwritten := works_writeReport root s w
  unfold runScan
  rcases hreport : writeReport root s w with ⟨e | report, w'⟩
  all_goals rw [hreport] at hwritten
  · exact ⟨rfl, hwritten⟩
  · obtain ⟨hfiles, hworks⟩ := works_answer hb (s.request (promptOf report.promptText)) w' log
    exact ⟨hfiles, hwritten.trans hworks⟩

end Triage
