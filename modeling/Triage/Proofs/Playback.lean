import Triage.Service.Backend

/-!
# Outcomes played back through layers of logging

Requests to a backend that plays back outcomes draw on its queue one by one, and each of them is
remembered, whatever it gets. Around such a backend there may be layers of logging. They answer
what it answers and leave it in the state it would be in without them; a layer only adds to the
name and writes down what passes through it.
-/

namespace Triage.Service

variable {σ τ υ : Type}

namespace Backend

/-! ### Runs -/

@[simp] theorem answers_nil (b : Backend σ) (s : σ) : b.answers [] s = ([], s) := rfl

@[simp] theorem answers_cons (b : Backend σ) (r : Request) (rs : List Request) (s : σ) :
    b.answers (r :: rs) s =
      ((b.answer r s).1 :: (b.answers rs (b.answer r s).2).1,
        (b.answers rs (b.answer r s).2).2) := rfl

@[simp] theorem length_answers (b : Backend σ) (rs : List Request) (s : σ) :
    (b.answers rs s).1.length = rs.length := by
  induction rs generalizing s with
  | nil => rfl
  | cons r rs ih => simp [ih]

/-- A run goes on from the state in which its first requests leave the backend. -/
theorem answers_append (b : Backend σ) (before after : List Request) (s : σ) :
    b.answers (before ++ after) s =
      ((b.answers before s).1 ++ (b.answers after (b.answers before s).2).1,
        (b.answers after (b.answers before s).2).2) := by
  induction before generalizing s with
  | nil => rfl
  | cons r before ih => simp [ih]

/-- Every moment of a run parts it into two runs. -/
theorem answers_split (b : Backend σ) {rs : List Request} {n : Nat} (hn : n ≤ rs.length) (s : σ) :
    b.answers (rs.take n) s = ((b.answers rs s).1.take n, (b.answers (rs.take n) s).2) ∧
      b.answers (rs.drop n) (b.answers (rs.take n) s).2 =
        ((b.answers rs s).1.drop n, (b.answers rs s).2) := by
  have hrun := b.answers_append (rs.take n) (rs.drop n) s
  rw [List.take_append_drop] at hrun
  have hlength : (b.answers (rs.take n) s).1.length = n := by
    rw [length_answers, List.length_take_of_le hn]
  constructor
  · rw [hrun, List.take_left' hlength]
  · rw [hrun, List.drop_left' hlength]

/-! ### Backends behind a view of their state -/

/-- Seen through a view of its state, the backend `b` is the backend `c`. -/
def Simulates (b : Backend σ) (c : Backend τ) (view : σ → τ) : Prop :=
  ∀ r s, c.answer r (view s) = ((b.answer r s).1, view (b.answer r s).2)

theorem Simulates.refl (b : Backend σ) : b.Simulates b id := fun _ _ => rfl

theorem Simulates.trans {b : Backend σ} {c : Backend τ} {d : Backend υ} {view : σ → τ}
    {further : τ → υ} (hbc : b.Simulates c view) (hcd : c.Simulates d further) :
    b.Simulates d (further ∘ view) := by
  intro r s
  have hinner := hcd r (view s)
  rw [hbc r s] at hinner
  exact hinner

/-- What holds of one request holds of a run. -/
theorem Simulates.answers {b : Backend σ} {c : Backend τ} {view : σ → τ} (h : b.Simulates c view)
    (rs : List Request) (s : σ) :
    c.answers rs (view s) = ((b.answers rs s).1, view (b.answers rs s).2) := by
  induction rs generalizing s with
  | nil => rfl
  | cons r rs ih => rw [answers_cons, answers_cons, h r s, ih]

theorem simulates_logging (b : Backend σ) : b.logging.Simulates b Prod.fst := fun _ _ => rfl

end Backend

/-! ### Layers of logging -/

/-- What is remembered under a number of layers of logging, and by the layers. -/
def Layered (σ : Type) : Nat → Type
  | 0 => σ
  | k + 1 => Layered σ k × List Exchange

namespace Layered

/-- What the backend under all layers remembers. -/
def core : {k : Nat} → Layered σ k → σ
  | 0, s => s
  | _ + 1, (s, _) => core s

/-- The exchanges noted down in each layer, the outermost one first. -/
def journals : {k : Nat} → Layered σ k → List (List Exchange)
  | 0, _ => []
  | _ + 1, (s, journal) => journal :: journals s

end Layered

namespace Backend

/-- The backend under a number of layers of logging. -/
def layered (b : Backend σ) : (k : Nat) → Backend (Layered σ k)
  | 0 => b
  | k + 1 => (b.layered k).logging

theorem name_layered (b : Backend σ) (k : Nat) :
    (b.layered k).name =
      String.join (List.replicate k "logging(") ++ b.name ++
        String.join (List.replicate k ")") := by
  induction k with
  | zero => simp [layered]
  | succ k ih =>
    have hname : (b.layered (k + 1)).name = "logging(" ++ (b.layered k).name ++ ")" := rfl
    -- A new layer encloses the name, so its closing bracket is the last one.
    rw [hname, ih, List.replicate_succ, String.join_cons, List.replicate_succ', String.join_append]
    simp [String.append_assoc]

/-- However many layers there are, the backend shows through. -/
theorem simulates_layered (b : Backend σ) (k : Nat) :
    (b.layered k).Simulates b Layered.core := by
  induction k with
  | zero => exact Simulates.refl b
  | succ k ih => exact (simulates_logging (b.layered k)).trans ih

/-- One request is noted down once in every layer. -/
theorem journals_answer (b : Backend σ) {k : Nat} (r : Request) (s : Layered σ k) :
    ((b.layered k).answer r s).2.journals =
      s.journals.map (· ++ [⟨r, ((b.layered k).answer r s).1⟩]) := by
  induction k with
  | zero => rfl
  | succ k ih => exact congrArg (_ :: ·) (ih s.1)

theorem journals_answers (b : Backend σ) {k : Nat} (rs : List Request) (s : Layered σ k) :
    ((b.layered k).answers rs s).2.journals =
      s.journals.map (· ++ rs.zipWith Exchange.mk ((b.layered k).answers rs s).1) := by
  induction rs generalizing s with
  | nil => simp
  | cons r rs ih =>
    simp only [answers_cons, ih, journals_answer, List.map_map, List.zipWith_cons_cons]
    simp [Function.comp_def]

end Backend

/-! ### Playing back -/

namespace Playback

/-- The outcome for the request with number `i`. -/
def outcomeAt (p : Playback) (i : Nat) : Outcome := p.queue[i]?.getD exhausted

theorem answer_mock (r : Request) (p : Playback) :
    Backend.mock.answer r p =
      (some (p.outcomeAt 0), ⟨p.queue.tail, p.requests ++ [r]⟩) := by
  simp [Backend.mock, next, outcomeAt, List.head?_eq_getElem?]

/-- The queue and the list of requests advance together. -/
theorem state_answers (rs : List Request) (p : Playback) :
    (Backend.mock.answers rs p).2 = ⟨p.queue.drop rs.length, p.requests ++ rs⟩ := by
  induction rs generalizing p with
  | nil => simp
  | cons r rs ih => simp [answer_mock, ih]

theorem outcomeAt_of_queued {p : Playback} {i : Nat} {o : Outcome} (h : p.queue[i]? = some o) :
    p.outcomeAt i = o := by
  rw [outcomeAt, h, Option.getD_some]

theorem outcomeAt_of_beyond {p : Playback} {i : Nat} (h : p.queue.length ≤ i) :
    p.outcomeAt i = exhausted := by
  rw [outcomeAt, List.getElem?_eq_none h, Option.getD_none]

theorem getElem?_answers {rs : List Request} {i : Nat} (hi : i < rs.length) (p : Playback) :
    (Backend.mock.answers rs p).1[i]? = some (some (p.outcomeAt i)) := by
  induction rs generalizing p i with
  | nil => exact absurd hi (Nat.not_lt_zero i)
  | cons r rs ih =>
    cases i with
    | zero => simp [answer_mock]
    | succ i =>
      have hrest := ih (Nat.lt_of_succ_lt_succ hi) ⟨p.queue.tail, p.requests ++ [r]⟩
      simpa [answer_mock, outcomeAt] using hrest

end Playback

/-- What a run gives out and leaves behind when outcomes are played back to its requests. -/
structure PlaysBack (queued : List Outcome) (rs : List Request) (outcomes : List (Option Outcome))
    (final : Playback) : Prop where
  oneEach : outcomes.length = rs.length
  inTurn : ∀ i < rs.length, ∀ o, queued[i]? = some o → outcomes[i]? = some (some o)
  beyond : ∀ i < rs.length, queued.length ≤ i →
    outcomes[i]? = some (some (.error (.backend "MockBackend: no more responses available")))
  recorded : final.requests = rs
  counted : final.requestCount = rs.length
  waiting : final.queue = queued.drop rs.length

theorem playsBack_mock (queued : List Outcome) (rs : List Request) :
    PlaysBack queued rs (Backend.mock.answers rs (.ofOutcomes queued)).1
      (Backend.mock.answers rs (.ofOutcomes queued)).2 where
  oneEach := Backend.length_answers _ rs _
  inTurn i hi o ho := by
    rw [Playback.getElem?_answers hi, Playback.outcomeAt_of_queued ho]
  beyond i hi hqueued := by
    rw [Playback.getElem?_answers hi, Playback.outcomeAt_of_beyond hqueued, Playback.exhausted]
  recorded := by rw [Playback.state_answers, Playback.ofOutcomes, List.nil_append]
  counted := by
    rw [Playback.state_answers, Playback.requestCount, Playback.ofOutcomes, List.nil_append]
  waiting := by rw [Playback.state_answers, Playback.ofOutcomes]

/-- Under any number of layers of logging the queued outcomes come in turn for as long as there are
any, and at every moment of a run the requests so far are remembered in order. The run is the one
that the backend has by itself. All that the layers add is their part of the name, and what each of
them writes down. -/
theorem playback_through_logging (k : Nat) (queued : List Outcome) (rs : List Request)
    (s : Layered Playback k) (hs : s.core = .ofOutcomes queued) :
    ∃ outcomes final, (Backend.mock.layered k).answers rs s = (outcomes, final) ∧
      PlaysBack queued rs outcomes final.core ∧
      (∀ n ≤ rs.length, ∃ t,
        (Backend.mock.layered k).answers (rs.take n) s = (outcomes.take n, t) ∧
        (Backend.mock.layered k).answers (rs.drop n) t = (outcomes.drop n, final) ∧
        t.core.requests = rs.take n ∧ t.core.requestCount = n) ∧
      Backend.mock.answers rs (.ofOutcomes queued) = (outcomes, final.core) ∧
      (Backend.mock.layered k).name =
        String.join (List.replicate k "logging(") ++ Backend.mock.name ++
          String.join (List.replicate k ")") ∧
      final.journals = s.journals.map (· ++ rs.zipWith Exchange.mk outcomes) := by
  -- The layers show the backend on the whole run and on each of its first parts alike.
  have hthrough : ∀ requests : List Request,
      Backend.mock.answers requests (.ofOutcomes queued) =
        (((Backend.mock.layered k).answers requests s).1,
          ((Backend.mock.layered k).answers requests s).2.core) := by
    intro requests
    have hsame := (Backend.mock.simulates_layered k).answers requests s
    rwa [hs] at hsame
  have hplays : ∀ requests : List Request,
      PlaysBack queued requests ((Backend.mock.layered k).answers requests s).1
        ((Backend.mock.layered k).answers requests s).2.core := by
    intro requests
    have hmock := playsBack_mock queued requests
    rwa [hthrough requests] at hmock
  refine ⟨_, _, rfl, hplays rs, ?_, hthrough rs, Backend.mock.name_layered k,
    Backend.mock.journals_answers rs s⟩
  intro n hn
  obtain ⟨hbefore, hafter⟩ := (Backend.mock.layered k).answers_split hn s
  have hmoment := hplays (rs.take n)
  refine ⟨_, hbefore, hafter, hmoment.recorded, ?_⟩
  rw [hmoment.counted, List.length_take_of_le hn]

/-- A failure and an assessment, to be played back under two layers of logging. -/
def twiceLogged : Layered Playback 2 :=
  ((.ofOutcomes [.error (.server "overloaded"), .ok ⟨"second try", "gpt-4o", ⟨1, 1⟩⟩], []), [])

/-- Three requests, the last one like the first. -/
def repeatedRequests : List Request := [{ prompt := "a" }, { prompt := "b" }, { prompt := "a" }]

/-- There are more requests than outcomes, and all of them are remembered. -/
theorem playback_through_logging_twice :
    twiceLogged.core =
      .ofOutcomes [.error (.server "overloaded"), .ok ⟨"second try", "gpt-4o", ⟨1, 1⟩⟩] ∧
    ∃ outcomes final,
      (Backend.mock.layered 2).answers repeatedRequests twiceLogged = (outcomes, final) ∧
      outcomes[0]? = some (some (.error (.server "overloaded"))) ∧
      outcomes[1]? = some (some (.ok ⟨"second try", "gpt-4o", ⟨1, 1⟩⟩)) ∧
      outcomes[2]? =
        some (some (.error (.backend "MockBackend: no more responses available"))) ∧
      final.core.requests = repeatedRequests ∧ final.core.requestCount = 3 ∧
      (Backend.mock.layered 2).name = "logging(logging(mock))" := by
  obtain ⟨outcomes, final, hrun, hplays, -, -, hname, -⟩ :=
    playback_through_logging 2
      [.error (.server "overloaded"), .ok ⟨"second try", "gpt-4o", ⟨1, 1⟩⟩]
      repeatedRequests twiceLogged rfl
  refine ⟨rfl, outcomes, final, hrun, ?_, ?_, ?_, hplays.recorded, hplays.counted, ?_⟩
  · exact hplays.inTurn 0 (by decide) _ rfl
  · exact hplays.inTurn 1 (by decide) _ rfl
  · exact hplays.beyond 2 (by decide) (by decide)
  · exact hname.trans (by decide)

end Triage.Service
