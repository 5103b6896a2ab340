import Mathlib.Tactic.IntervalCases
import Mathlib.Tactic.Ring
import Triage.Proofs.Retry

/-!
# The loop of tries, turn by turn

`retry` counts the tries that are left. `Loop` counts the failures so far, in a word of 32 bits, and
lists what happens in order: calls, and pauses between them. It may come to an end with a result,
or with a number out of reach. The count of failures never is; the pause is when it doubles too
often.
-/

namespace Triage.Service

/-- What happens while something is tried. -/
inductive Moment where
  | call
  | pause (length : Duration)
deriving DecidableEq, Repr

def Moment.pause? : Moment → Option Duration
  | call => none
  | pause length => some length

/-- How tries come to an end. -/
inductive Ending (α : Type) where
  | result (r : Except Failure α)
  /-- There are more failures than a word of 32 bits counts. -/
  | countOut
  /-- Twice the pause is out of reach. -/
  | pauseOut

def Ending.result? {α : Type} : Ending α → Option (Except Failure α)
  | result r => some r
  | countOut => none
  | pauseOut => none

/-- A loop with its variables: the failures so far, the next pause and the state of the action. It
lists what happens until it ends, and has the last state and the ending. -/
inductive Loop {σ α : Type} (act : σ → Except Failure α × σ) (retries : UInt32) :
    UInt32 → Duration → σ → List Moment → σ → Ending α → Prop
  | last {failures : UInt32} {pause : Duration} {s : σ}
      (final : mayPass (act s).1 = false ∨ retries ≤ failures) :
      Loop act retries failures pause s [.call] (act s).2 (.result (act s).1)
  | again {failures : UInt32} {pause next : Duration} {s t : σ} {log : List Moment} {e : Ending α}
      (passing : mayPass (act s).1 = true) (left : failures < retries)
      (counted : failures.toNat + 1 < UInt32.size) (doubled : pause.double? = some next)
      (rest : Loop act retries (failures + 1) next (act s).2 log t e) :
      Loop act retries failures pause s (.call :: .pause pause :: log) t e
  | countOut {failures : UInt32} {pause : Duration} {s : σ} (passing : mayPass (act s).1 = true)
      (left : failures < retries) (uncounted : UInt32.size ≤ failures.toNat + 1) :
      Loop act retries failures pause s [.call] (act s).2 .countOut
  | pauseOut {failures : UInt32} {pause : Duration} {s : σ} (passing : mayPass (act s).1 = true)
      (left : failures < retries) (counted : failures.toNat + 1 < UInt32.size)
      (undoubled : pause.double? = none) :
      Loop act retries failures pause s [.call, .pause pause] (act s).2 .pauseOut

/-- One call more than there are pauses, with one pause between two calls; the first lasts `pause`
and each lasts twice as long as the one before it. -/
def timeline (pause : Duration) (k : Nat) : List Moment :=
  ((List.range k).flatMap fun i => [.call, .pause ⟨pause.nanoseconds * 2 ^ i⟩]) ++ [.call]

variable {σ α : Type} {act : σ → Except Failure α × σ} {retries failures : UInt32}
  {pause : Duration} {s t : σ} {log : List Moment} {e : Ending α} {k : Nat}

/-- As long as tries are left, one failure more can be counted. -/
theorem count_fits (h : failures < retries) : failures.toNat + 1 < UInt32.size := by
  have hlt : failures.toNat < retries.toNat := h
  have hsize : retries.toNat < UInt32.size := retries.toNat_lt_size
  omega

theorem left_succ (h : failures < retries) :
    retries.toNat - failures.toNat = (retries.toNat - (failures + 1).toNat) + 1 := by
  have hlt : failures.toNat < retries.toNat := h
  have hone : (failures + 1).toNat = failures.toNat + 1 := by
    have hfits := count_fits h
    rw [UInt32.toNat_add]
    exact Nat.mod_eq_of_lt hfits
  omega

theorem Loop.ne_countOut (h : Loop act retries failures pause s log t e) : e ≠ .countOut := by
  induction h with
  | last _ => exact nofun
  | again _ _ _ _ _ ih => exact ih
  | countOut _ left uncounted => exact absurd (count_fits left) (Nat.not_lt.mpr uncounted)
  | pauseOut _ _ _ _ => exact nofun

/-- The loop ends, whatever comes of the calls. -/
theorem exists_loop (act : σ → Except Failure α × σ) (retries failures : UInt32) (pause : Duration)
    (s : σ) : ∃ log t e, Loop act retries failures pause s log t e := by
  generalize hn : retries.toNat - failures.toNat = n
  induction n generalizing failures pause s with
  | zero =>
    have hnone : retries ≤ failures := by
      have hle : retries.toNat ≤ failures.toNat := by omega
      exact hle
    exact ⟨_, _, _, .last (.inr hnone)⟩
  | succ n ih =>
    have hleft : failures < retries := by
      have hlt : failures.toNat < retries.toNat := by omega
      exact hlt
    cases hpass : mayPass (act s).1 with
    | false => exact ⟨_, _, _, .last (.inl hpass)⟩
    | true =>
      cases hdouble : pause.double? with
      | none => exact ⟨_, _, _, .pauseOut hpass hleft (count_fits hleft) hdouble⟩
      | some next =>
        have hsucc := left_succ hleft
        obtain ⟨log, t, e, hrest⟩ := ih (failures + 1) next (act s).2 (by omega)
        exact ⟨_, t, e, .again hpass hleft (count_fits hleft) hdouble hrest⟩

/-- What the loop does is what `retry` sums up. -/
theorem Loop.retry_eq (h : Loop act retries failures pause s log t e) :
    retry act (retries.toNat - failures.toNat) pause s =
      ⟨log.count .call, log.filterMap Moment.pause?, t, e.result?⟩ := by
  induction h with
  | @last failures pause s final =>
    rcases final with hfinal | hnone
    · exact retry_of_final _ pause hfinal
    · have hzero : retries.toNat - failures.toNat = 0 := Nat.sub_eq_zero_of_le hnone
      rw [hzero]
      rfl
  | again passing left _ doubled _ ih =>
    rw [left_succ left, retry_of_passing _ _ passing, doubled]
    dsimp only
    rw [ih]
    simp [Attempts.after, List.filterMap_cons, Moment.pause?]
  | countOut _ left uncounted => exact absurd (count_fits left) (Nat.not_lt.mpr uncounted)
  | pauseOut passing left _ undoubled =>
    rw [left_succ left, retry_of_passing _ _ passing, undoubled]
    rfl

theorem IsLastTry.eq_zero {n : Nat} (h : IsLastTry act n s k)
    (hfinal : mayPass (act s).1 = false ∨ n = 0) : k = 0 := by
  rcases hfinal with hfinal | rfl
  · by_contra hk
    have hpass : mayPass (act s).1 = true := h.passing 0 (Nat.pos_of_ne_zero hk)
    rw [hfinal] at hpass
    cases hpass
  · exact Nat.le_zero.mp h.within

theorem IsLastTry.exists_succ {n : Nat} (h : IsLastTry act (n + 1) s k)
    (hpass : mayPass (act s).1 = true) : ∃ j, k = j + 1 ∧ IsLastTry act n (act s).2 j := by
  cases k with
  | zero =>
    have hfinal : mayPass (act s).1 = false := h.final (Nat.succ_pos n)
    rw [hpass] at hfinal
    cases hfinal
  | succ j => exact ⟨j, rfl, h.tail⟩

theorem IsLastTry.unique {n j : Nat} (h : IsLastTry act n s k) (hj : IsLastTry act n s j) :
    j = k := by
  have hle : ∀ {i j : Nat}, IsLastTry act n s i → IsLastTry act n s j → j ≤ i := by
    intro i j hi hj
    by_contra hlt
    have hpass := hj.passing i (Nat.lt_of_not_le hlt)
    have hfinal := hi.final (Nat.lt_of_lt_of_le (Nat.lt_of_not_le hlt) hj.within)
    rw [hpass] at hfinal
    cases hfinal
  exact Nat.le_antisymm (hle h hj) (hle hj h)

/-- The pause is out of reach at the end exactly when it has to double, and the longest one does not
fit. -/
theorem Loop.pauseOut_iff (h : Loop act retries failures pause s log t e)
    (hk : IsLastTry act (retries.toNat - failures.toNat) s k) :
    e = .pauseOut ↔ 0 < k ∧ Duration.limit ≤ pause.nanoseconds * 2 ^ k := by
  induction h generalizing k with
  | @last failures pause s final =>
    have hzero : k = 0 := hk.eq_zero (final.imp_right Nat.sub_eq_zero_of_le)
    simp [hzero]
  | @again failures pause next s _ _ _ passing left _ doubled _ ih =>
    rw [left_succ left] at hk
    obtain ⟨j, rfl, htail⟩ := hk.exists_succ passing
    obtain ⟨hfits, rfl⟩ : 2 * pause.nanoseconds < Duration.limit ∧
        ⟨2 * pause.nanoseconds⟩ = next := by
      simpa [Duration.double?] using doubled
    have hpower : pause.nanoseconds * 2 ^ (j + 1) = 2 * pause.nanoseconds * 2 ^ j := by ring
    rw [ih htail, hpower]
    cases j with
    | zero =>
      simp only [pow_zero, mul_one]
      omega
    | succ j => simp
  | countOut _ left uncounted => exact absurd (count_fits left) (Nat.not_lt.mpr uncounted)
  | @pauseOut failures pause s passing left _ undoubled =>
    rw [left_succ left] at hk
    obtain ⟨j, rfl, -⟩ := hk.exists_succ passing
    have hbeyond : Duration.limit ≤ 2 * pause.nanoseconds := by
      simpa [Duration.double?] using undoubled
    have hlonger : 2 * pause.nanoseconds * 1 ≤ 2 * pause.nanoseconds * 2 ^ j :=
      Nat.mul_le_mul_left _ Nat.one_le_two_pow
    have hpower : pause.nanoseconds * 2 ^ (j + 1) = 2 * pause.nanoseconds * 2 ^ j := by ring
    simp only [hpower, Nat.succ_pos, true_and, true_iff]
    omega

theorem timeline_succ (pause : Duration) (k : Nat) :
    timeline pause (k + 1) =
      .call :: .pause pause :: timeline ⟨2 * pause.nanoseconds⟩ k := by
  have hdouble : ∀ i, pause.nanoseconds * 2 ^ (i + 1) = 2 * pause.nanoseconds * 2 ^ i := by
    intro i
    ring
  simp [timeline, List.range_succ_eq_map, List.flatMap_cons, List.flatMap_map, hdouble]

/-- What happens when no pause is out of reach. -/
theorem Loop.eq_of_isLastTry (h : Loop act retries failures pause s log t e)
    (hk : IsLastTry act (retries.toNat - failures.toNat) s k)
    (hpause : pause.nanoseconds * 2 ^ k < Duration.limit) :
    log = timeline pause k ∧ t = stateBefore act (k + 1) s ∧ e = .result (resultOf act k s) := by
  induction h generalizing k with
  | @last failures pause s final =>
    obtain rfl : k = 0 := hk.eq_zero (final.imp_right Nat.sub_eq_zero_of_le)
    exact ⟨rfl, rfl, rfl⟩
  | @again failures pause next s _ _ _ passing left _ doubled _ ih =>
    rw [left_succ left] at hk
    obtain ⟨j, rfl, htail⟩ := hk.exists_succ passing
    obtain ⟨-, rfl⟩ : 2 * pause.nanoseconds < Duration.limit ∧
        ⟨2 * pause.nanoseconds⟩ = next := by
      simpa [Duration.double?] using doubled
    have hpower : 2 * pause.nanoseconds * 2 ^ j = pause.nanoseconds * 2 ^ (j + 1) := by ring
    obtain ⟨rfl, hstate, hending⟩ := ih htail (hpower ▸ hpause)
    exact ⟨(timeline_succ pause j).symm, hstate, hending⟩
  | countOut _ left uncounted => exact absurd (count_fits left) (Nat.not_lt.mpr uncounted)
  | @pauseOut failures pause s passing left counted undoubled =>
    have hloop : Loop act retries failures pause s [.call, .pause pause] (act s).2 .pauseOut :=
      .pauseOut passing left counted undoubled
    obtain ⟨-, hbeyond⟩ := (hloop.pauseOut_iff hk).mp rfl
    exact absurd hbeyond (Nat.not_le.mpr hpause)

/-- The action is called until its first result that is final, or as often as it may be, and the
result is that of the last call. Between two calls there is one pause, the first as long as given
and each twice as long as the one before it. The loop ends whatever the results are. -/
theorem retry_until_final (act : σ → Except Failure α × σ) (retries : UInt32) (pause : Duration)
    (s : σ) :
    ∃ k, IsLastTry act retries.toNat s k ∧ (∀ j, IsLastTry act retries.toNat s j → j = k) ∧
      (∃ log t e, Loop act retries 0 pause s log t e) ∧
      (pause.nanoseconds * 2 ^ k < Duration.limit →
        retry act retries.toNat pause s =
          ⟨k + 1, (List.range k).map fun i => ⟨pause.nanoseconds * 2 ^ i⟩,
            stateBefore act (k + 1) s, some (resultOf act k s)⟩ ∧
        ∀ log t e, Loop act retries 0 pause s log t e ↔
          log = timeline pause k ∧ t = stateBefore act (k + 1) s ∧
            e = .result (resultOf act k s)) := by
  obtain ⟨k, hk⟩ := exists_isLastTry act retries.toNat s
  obtain ⟨log, t, e, hloop⟩ := exists_loop act retries 0 pause s
  refine ⟨k, hk, fun j hj => hk.unique hj, ⟨log, t, e, hloop⟩, fun hpause => ?_⟩
  refine ⟨Service.retry_eq hk hpause, fun log' t' e' => ?_⟩
  constructor
  · intro h
    exact h.eq_of_isLastTry hk hpause
  · rintro ⟨rfl, rfl, rfl⟩
    obtain ⟨rfl, rfl, rfl⟩ := hloop.eq_of_isLastTry hk hpause
    exact hloop

/-- An action that gives results one after the other. -/
def nextResult (rs : List (Except Failure Nat)) : Except Failure Nat × List (Except Failure Nat) :=
  (rs.headD (.error (.network "closed")), rs.tail)

/-- Two requests are lost, the third one is refused for good although a fourth one may be tried. -/
theorem retry_until_final_refused :
    (⟨500⟩ : Duration).nanoseconds * 2 ^ 2 < Duration.limit ∧
      retry nextResult 3 ⟨500⟩ [.error (.network "reset"), .error (.network "reset"),
        .error (.auth "bad key"), .ok 7] =
      ⟨3, [⟨500⟩, ⟨1000⟩], [.ok 7], some (.error (.auth "bad key"))⟩ ∧
      Loop nextResult 3 0 ⟨500⟩ [.error (.network "reset"), .error (.network "reset"),
        .error (.auth "bad key"), .ok 7]
        [.call, .pause ⟨500⟩, .call, .pause ⟨1000⟩, .call] [.ok 7]
        (.result (.error (.auth "bad key"))) := by
  obtain ⟨k, hk, hunique, -, hrun⟩ := retry_until_final nextResult 3 ⟨500⟩
    [.error (.network "reset"), .error (.network "reset"), .error (.auth "bad key"), .ok 7]
  have htwo : IsLastTry nextResult 3 [.error (.network "reset"), .error (.network "reset"),
      .error (.auth "bad key"), .ok 7] 2 := by
    refine ⟨by decide, fun i hi => ?_, fun _ => rfl⟩
    interval_cases i <;> rfl
  obtain rfl : 2 = k := hunique 2 htwo
  obtain ⟨hretry, hloop⟩ := hrun (by decide)
  exact ⟨by decide, hretry, (hloop _ _ _).mpr ⟨rfl, rfl, rfl⟩⟩

end Triage.Service
