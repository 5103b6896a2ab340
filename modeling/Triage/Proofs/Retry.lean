import Mathlib.Tactic.Ring
import Triage.Service.Retry

/-!
# How often something is tried

The results of an action, tried over and over, are a sequence that does not depend on when the
tries end. They end with the first result that is final, or with the last try there may be. Between
two tries there is one pause, and its length doubles.
-/

namespace Triage.Service

variable {σ α : Type} {act : σ → Except Failure α × σ} {s : σ} {retries k : Nat}

/-- A failure that another try may get around. -/
def mayPass : Except Failure α → Bool
  | .ok _ => false
  | .error f => f.isTransient

/-- The state in which the try with number `k` finds things. -/
def stateBefore (act : σ → Except Failure α × σ) : Nat → σ → σ
  | 0, s => s
  | k + 1, s => stateBefore act k (act s).2

/-- The result of the try with number `k`. -/
def resultOf (act : σ → Except Failure α × σ) (k : Nat) (s : σ) : Except Failure α :=
  (act (stateBefore act k s)).1

/-- The try with number `k` is the last one when there may be `retries` after the first. -/
structure IsLastTry (act : σ → Except Failure α × σ) (retries : Nat) (s : σ) (k : Nat) : Prop where
  within : k ≤ retries
  passing : ∀ i < k, mayPass (resultOf act i s) = true
  final : k < retries → mayPass (resultOf act k s) = false

theorem IsLastTry.tail (h : IsLastTry act (retries + 1) s (k + 1)) :
    IsLastTry act retries (act s).2 k where
  within := Nat.le_of_succ_le_succ h.within
  passing i hi := h.passing (i + 1) (Nat.succ_lt_succ hi)
  final hk := h.final (Nat.succ_lt_succ hk)

theorem IsLastTry.cons (hpass : mayPass (act s).1 = true)
    (h : IsLastTry act retries (act s).2 k) : IsLastTry act (retries + 1) s (k + 1) where
  within := Nat.succ_le_succ h.within
  passing i hi := by
    cases i with
    | zero => exact hpass
    | succ i => exact h.passing i (Nat.lt_of_succ_lt_succ hi)
  final hk := h.final (Nat.lt_of_succ_lt_succ hk)

theorem exists_isLastTry (act : σ → Except Failure α × σ) (retries : Nat) (s : σ) :
    ∃ k, IsLastTry act retries s k := by
  induction retries generalizing s with
  | zero => exact ⟨0, Nat.le_refl 0, nofun, nofun⟩
  | succ retries ih =>
    cases hpass : mayPass (act s).1 with
    | false => exact ⟨0, Nat.zero_le _, nofun, fun _ => hpass⟩
    | true =>
      obtain ⟨k, hk⟩ := ih (act s).2
      exact ⟨k + 1, hk.cons hpass⟩

theorem double?_of_lt {d : Duration} (h : d.nanoseconds * 2 ^ (k + 1) < Duration.limit) :
    d.double? = some ⟨2 * d.nanoseconds⟩ := by
  have hone : 1 ≤ 2 ^ k := Nat.one_le_two_pow
  have hfits : 2 * d.nanoseconds < Duration.limit := by
    calc 2 * d.nanoseconds ≤ 2 * d.nanoseconds * 2 ^ k := Nat.le_mul_of_pos_right _ hone
      _ = d.nanoseconds * 2 ^ (k + 1) := by ring
      _ < Duration.limit := h
  rw [Duration.double?, if_pos hfits]

/-- A result that is final ends the tries, however many are left. -/
theorem retry_of_final (retries : Nat) (pause : Duration) (h : mayPass (act s).1 = false) :
    retry act retries pause s = ⟨1, [], (act s).2, some (act s).1⟩ := by
  cases retries with
  | zero => rfl
  | succ retries =>
    rw [retry]
    rcases hact : act s with ⟨f | a, t⟩
    · have hf : f.isTransient = false := by rwa [hact] at h
      simp [hf]
    · rfl

/-- A failure that may pass is followed by a pause and by the tries that are left. -/
theorem retry_of_passing (retries : Nat) (pause : Duration) (h : mayPass (act s).1 = true) :
    retry act (retries + 1) pause s =
      match pause.double? with
      | some next => (retry act retries next (act s).2).after pause
      | none => ⟨1, [pause], (act s).2, none⟩ := by
  rw [retry]
  rcases hact : act s with ⟨f | a, t⟩
  · have hf : f.isTransient = true := by rwa [hact] at h
    exact if_pos hf
  · rw [hact] at h
    cases h

/-- A run of tries that is not broken off by a pause out of reach. -/
theorem retry_eq {pause : Duration} (h : IsLastTry act retries s k)
    (hpause : pause.nanoseconds * 2 ^ k < Duration.limit) :
    retry act retries pause s =
      ⟨k + 1, (List.range k).map fun i => ⟨pause.nanoseconds * 2 ^ i⟩, stateBefore act (k + 1) s,
        some (resultOf act k s)⟩ := by
  induction retries generalizing pause s k with
  | zero =>
    obtain rfl : k = 0 := Nat.le_zero.mp h.within
    rfl
  | succ retries ih =>
    cases k with
    | zero => exact retry_of_final (retries + 1) pause (h.final (Nat.succ_pos retries))
    | succ k =>
      have hnext : 2 * pause.nanoseconds * 2 ^ k < Duration.limit := by
        rwa [show 2 * pause.nanoseconds * 2 ^ k = pause.nanoseconds * 2 ^ (k + 1) by ring]
      have hpauses : ∀ i, 2 * pause.nanoseconds * 2 ^ i = pause.nanoseconds * 2 ^ (i + 1) := by
        intro i
        ring
      have hpass : mayPass (act s).1 = true := h.passing 0 (Nat.succ_pos k)
      rw [retry_of_passing retries pause hpass, double?_of_lt hpause]
      simp only [ih h.tail hnext, Attempts.after, List.range_succ_eq_map, List.map_cons,
        List.map_map, Function.comp_def, hpauses, pow_zero, mul_one]
      rfl

/-- What every try preserves holds after all of them. -/
theorem retry_state {P : σ → Prop} (hact : ∀ s, P s → P (act s).2) (pause : Duration) (hs : P s) :
    P (retry act retries pause s).state := by
  induction retries generalizing pause s with
  | zero => exact hact s hs
  | succ retries ih =>
    have hafter := hact s hs
    cases hpass : mayPass (act s).1 with
    | false =>
      rw [retry_of_final (retries + 1) pause hpass]
      exact hafter
    | true =>
      rw [retry_of_passing retries pause hpass]
      cases pause.double? with
      | none => exact hafter
      | some next => exact ih next hafter

end Triage.Service
