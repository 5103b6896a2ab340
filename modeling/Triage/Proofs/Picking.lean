import Mathlib.Data.List.Forall2

/-!
# What is picked from a list

The first member that passes a test, and the list of what the members are related to, some of them
or all. These are told by how a list is put together, and agree with the functions that look it
through.
-/

namespace Triage

/-- The first member of a list that passes a test. -/
def IsFirst {α : Type} (p : α → Bool) (as : List α) (a : α) : Prop :=
  ∃ before after, as = before ++ a :: after ∧ p a = true ∧ ∀ b ∈ before, p b = false

/-- What the members of a list are related to: one for each member that is related to anything, in
the order of the members. -/
inductive Picks {α β : Type} (R : α → β → Prop) : List α → List β → Prop
  | nil : Picks R [] []
  | take {a : α} {b : β} {as : List α} {bs : List β} (h : R a b) (rest : Picks R as bs) :
      Picks R (a :: as) (b :: bs)
  | pass {a : α} {as : List α} {bs : List β} (h : ∀ b, ¬ R a b) (rest : Picks R as bs) :
      Picks R (a :: as) bs

theorem isFirst_iff {α : Type} {p : α → Bool} {as : List α} {a : α} :
    IsFirst p as a ↔ as.find? p = some a := by
  rw [List.find?_eq_some_iff_append]
  constructor
  · rintro ⟨before, after, rfl, ha, hbefore⟩
    exact ⟨ha, before, after, rfl, by simpa using hbefore⟩
  · rintro ⟨ha, before, after, rfl, hbefore⟩
    exact ⟨before, after, rfl, ha, by simpa using hbefore⟩

/-- What a function picks, and nothing else, is picked by the relation that it computes. -/
theorem picks_iff {α β : Type} {R : α → β → Prop} {f : α → Option β}
    (h : ∀ a b, R a b ↔ f a = some b) {as : List α} {bs : List β} :
    Picks R as bs ↔ as.filterMap f = bs := by
  constructor
  · intro hpicks
    induction hpicks with
    | nil => rfl
    | take hab _ ih => rw [List.filterMap_cons_some ((h _ _).mp hab), ih]
    | pass hnone _ ih =>
      rw [List.filterMap_cons_none, ih]
      exact Option.eq_none_iff_forall_ne_some.mpr fun b hb => hnone b ((h _ b).mpr hb)
  · rintro rfl
    induction as with
    | nil => exact .nil
    | cons a as ih =>
      cases hfa : f a with
      | none =>
        rw [List.filterMap_cons_none hfa]
        refine .pass (fun b hb => ?_) ih
        rw [(h a b).mp hb] at hfa
        cases hfa
      | some b =>
        rw [List.filterMap_cons_some hfa]
        exact .take ((h a b).mpr hfa) ih

/-- A function gives a value for every member when every member is related to one. -/
theorem forall₂_iff_mapM {α β : Type} {R : α → β → Prop} {f : α → Option β}
    (h : ∀ a b, R a b ↔ f a = some b) {as : List α} {bs : List β} :
    List.Forall₂ R as bs ↔ as.mapM f = some bs := by
  induction as generalizing bs with
  | nil => simp [eq_comm]
  | cons a as ih =>
    rw [List.mapM_cons, List.forall₂_cons_left_iff]
    simp only [Option.bind_eq_bind, Option.bind_eq_some_iff, ← ih, ← h, Option.pure_def,
      Option.some.injEq]
    constructor
    · rintro ⟨b, bs, hb, hbs, rfl⟩
      exact ⟨b, hb, bs, hbs, rfl⟩
    · rintro ⟨b, hb, bs, hbs, rfl⟩
      exact ⟨b, bs, hb, hbs, rfl⟩

end Triage
