import Triage.Event

/-!
# Decorators answered by calls

A decorator that is a call is seen twice in a stream of events: as a decorator, and later as a
call. `Answered` builds the streams in which every Decorator event has a Function Call event of its
own, one event or one pair at a time, and gives the positions of the pairs.
-/

namespace Triage

/-- A call event with the label of a decorator. -/
def Event.IsAnsweredBy (e answer : Event) : Prop :=
  answer.kind = .functionCall ∧
    ∃ label function args, e.details = .decorator label function ∧ answer.details = .call label args

/-- The streams that grow by events that are no decorators, and by decorators with their calls. -/
inductive Answered : List Event → Prop
  | nil : Answered []
  | other {before after : List Event} {e : Event} (he : e.kind ≠ .decorator)
      (h : Answered (before ++ after)) : Answered (before ++ e :: after)
  | pair {before between after : List Event} {e answer : Event} (he : e.IsAnsweredBy answer)
      (h : Answered (before ++ (between ++ after))) :
      Answered (before ++ e :: (between ++ answer :: after))

/-- Every Decorator event of a stream has a later Function Call event with its label, and no two
have the same one. -/
def AnsweredApart (es : List Event) : Prop :=
  ∃ answer : Nat → Nat,
    (∀ i e, es[i]? = some e → e.kind = .decorator →
      i < answer i ∧ ∃ call, es[answer i]? = some call ∧ e.IsAnsweredBy call) ∧
    ∀ i j e e', es[i]? = some e → e.kind = .decorator → es[j]? = some e' → e'.kind = .decorator →
      answer i = answer j → i = j

/-- Where an item goes when one is put in at `k`. -/
def shift (k i : Nat) : Nat := if i < k then i else i + 1

/-- Where an item was before one was put in at `k`. -/
def unshift (k i : Nat) : Nat := if i < k then i else i - 1

theorem shift_lt_shift {k i j : Nat} (h : i < j) : shift k i < shift k j := by
  unfold shift
  split <;> split <;> omega

theorem shift_inj {k i j : Nat} (h : shift k i = shift k j) : i = j := by
  unfold shift at h
  split at h <;> split at h <;> omega

theorem shift_ne (k i : Nat) : shift k i ≠ k := by
  unfold shift
  split <;> omega

theorem unshift_shift (k i : Nat) : unshift k (shift k i) = i := by
  by_cases h : i < k
  · simp [unshift, shift, h]
  · have hnext : ¬ i + 1 < k := by omega
    simp [unshift, shift, h, hnext]

theorem eq_or_eq_shift (k i : Nat) : i = k ∨ ∃ j, i = shift k j := by
  rcases Nat.lt_trichotomy i k with h | h | h
  · exact Or.inr ⟨i, (if_pos h).symm⟩
  · exact Or.inl h
  · have hlast : ¬ i - 1 < k := by omega
    refine Or.inr ⟨i - 1, ?_⟩
    rw [shift, if_neg hlast]
    omega

theorem getElem?_shift {α : Type} (before after : List α) (a : α) (i : Nat) :
    (before ++ a :: after)[shift before.length i]? = (before ++ after)[i]? := by
  unfold shift
  split
  · rename_i h
    rw [List.getElem?_append_left h, List.getElem?_append_left h]
  · rename_i h
    rw [List.getElem?_append_right (by omega), List.getElem?_append_right (by omega)]
    have hi : i + 1 - before.length = i - before.length + 1 := by omega
    rw [hi, List.getElem?_cons_succ]

theorem getElem?_length {α : Type} (before after : List α) (a : α) :
    (before ++ a :: after)[before.length]? = some a := by simp

theorem AnsweredApart.other {before after : List Event} {e : Event} (he : e.kind ≠ .decorator)
    (h : AnsweredApart (before ++ after)) : AnsweredApart (before ++ e :: after) := by
  obtain ⟨answer, hanswer, hinj⟩ := h
  have hold : ∀ {i d}, (before ++ e :: after)[i]? = some d → d.kind = .decorator →
      ∃ j, i = shift before.length j ∧ (before ++ after)[j]? = some d := by
    intro i d hi hd
    rcases eq_or_eq_shift before.length i with rfl | ⟨j, rfl⟩
    · rw [getElem?_length] at hi
      exact absurd (Option.some.inj hi ▸ hd) he
    · exact ⟨j, rfl, (getElem?_shift before after e j).symm.trans hi⟩
  refine ⟨fun i => shift before.length (answer (unshift before.length i)), ?_, ?_⟩
  · intro i d hi hd
    obtain ⟨j, rfl, hj⟩ := hold hi hd
    obtain ⟨hlater, call, hcall, hd⟩ := hanswer j d hj hd
    simp only [unshift_shift]
    exact ⟨shift_lt_shift hlater, call, (getElem?_shift ..).trans hcall, hd⟩
  · intro i i' d d' hi hd hi' hd' heq
    obtain ⟨j, rfl, hj⟩ := hold hi hd
    obtain ⟨j', rfl, hj'⟩ := hold hi' hd'
    simp only [unshift_shift] at heq
    rw [hinj j j' d d' hj hd hj' hd' (shift_inj heq)]

theorem AnsweredApart.pair {before between after : List Event} {e call : Event}
    (he : e.IsAnsweredBy call) (h : AnsweredApart (before ++ (between ++ after))) :
    AnsweredApart (before ++ e :: (between ++ call :: after)) := by
  obtain ⟨answer, hanswer, hinj⟩ := h
  let new := before.length
  let last := (before ++ between).length
  have hkept : ∀ j, (before ++ e :: (between ++ call :: after))[shift new (shift last j)]? =
      (before ++ (between ++ after))[j]? := by
    intro j
    rw [getElem?_shift, ← List.append_assoc, getElem?_shift, List.append_assoc]
  have hcall : (before ++ e :: (between ++ call :: after))[shift new last]? = some call := by
    rw [getElem?_shift, ← List.append_assoc, getElem?_length]
  have hold : ∀ {i d}, (before ++ e :: (between ++ call :: after))[i]? = some d →
      d.kind = .decorator →
      i = new ∧ d = e ∨ ∃ j, i = shift new (shift last j) ∧
        (before ++ (between ++ after))[j]? = some d := by
    intro i d hi hd
    rcases eq_or_eq_shift new i with rfl | ⟨i, rfl⟩
    · rw [getElem?_length] at hi
      exact Or.inl ⟨rfl, (Option.some.inj hi).symm⟩
    · rcases eq_or_eq_shift last i with rfl | ⟨j, rfl⟩
      · rw [hcall] at hi
        obtain rfl := Option.some.inj hi
        rw [he.1] at hd
        cases hd
      · exact Or.inr ⟨j, rfl, (hkept j).symm.trans hi⟩
  let answer' := fun i =>
    if i = new then shift new last
    else shift new (shift last (answer (unshift last (unshift new i))))
  have hnew : answer' new = shift new last := if_pos rfl
  have hshift : ∀ j, answer' (shift new (shift last j)) = shift new (shift last (answer j)) := by
    intro j
    simp only [answer', if_neg (shift_ne new (shift last j)), unshift_shift]
  refine ⟨answer', ?_, ?_⟩
  · intro i d hi hd
    rcases hold hi hd with ⟨rfl, rfl⟩ | ⟨j, rfl, hj⟩
    · refine ⟨?_, call, hnew ▸ hcall, he⟩
      have hle : new ≤ last := by simp [new, last]
      rw [hnew, shift, if_neg (by omega)]
      omega
    · obtain ⟨hlater, found, hfound, hd⟩ := hanswer j d hj hd
      rw [hshift]
      exact ⟨shift_lt_shift (shift_lt_shift hlater), found, (hkept _).trans hfound, hd⟩
  · intro i i' d d' hi hd hi' hd' heq
    rcases hold hi hd with ⟨rfl, -⟩ | ⟨j, rfl, hj⟩ <;>
      rcases hold hi' hd' with ⟨rfl, -⟩ | ⟨j', rfl, hj'⟩
    · rfl
    · rw [hnew, hshift] at heq
      exact absurd (shift_inj heq).symm (shift_ne last _)
    · rw [hnew, hshift] at heq
      exact absurd (shift_inj heq) (shift_ne last _)
    · rw [hshift, hshift] at heq
      rw [hinj j j' d d' hj hd hj' hd' (shift_inj (shift_inj heq))]

/-- What was built in pairs has an answer for every decorator. -/
theorem Answered.apart {es : List Event} (h : Answered es) : AnsweredApart es := by
  induction h with
  | nil => exact ⟨id, by simp, by simp⟩
  | other he _ ih => exact ih.other he
  | pair he _ ih => exact ih.pair he

namespace Answered

/-- An answered stream may stand within another one. -/
theorem insert {before middle after : List Event} (hmiddle : Answered middle)
    (h : Answered (before ++ after)) : Answered (before ++ (middle ++ after)) := by
  induction hmiddle with
  | nil => exact h
  | @other first last e he _ ih =>
    have hnext : Answered ((before ++ first) ++ e :: (last ++ after)) :=
      other he (by simpa using ih)
    simpa using hnext
  | @pair first between last e call he _ ih =>
    have hnext : Answered ((before ++ first) ++ e :: (between ++ call :: (last ++ after))) :=
      pair he (by simpa using ih)
    simpa using hnext

theorem append {es es' : List Event} (h : Answered es) (h' : Answered es') :
    Answered (es ++ es') := by
  have hrest : Answered ([] ++ es') := h'
  exact insert h hrest

theorem flatMap {α : Type} {f : α → List Event} {as : List α} (h : ∀ a ∈ as, Answered (f a)) :
    Answered (as.flatMap f) := by
  induction as with
  | nil => exact nil
  | cons a as ih =>
    rw [List.flatMap_cons]
    exact append (h a List.mem_cons_self) (ih fun b hb => h b (List.mem_cons_of_mem a hb))

theorem of_no_decorator {es : List Event} (h : ∀ e ∈ es, e.kind ≠ .decorator) : Answered es := by
  induction es with
  | nil => exact nil
  | cons e es ih =>
    have hrest : Answered ([] ++ es) := ih fun d hd => h d (List.mem_cons_of_mem e hd)
    exact other (h e List.mem_cons_self) hrest

end Answered

end Triage
