import Triage.Proofs.Json.Scalar
import Triage.Proofs.Picking

/-!
# The fields of a record

A record is read from an object or from an array. What there is for each of its fields is told here
by how the members and the items stand, and so is the natural number that a value may be.
-/

namespace Triage.Json

/-- What an object has for a field: its only member of that name, or nothing. -/
inductive MemberFor (ms : List (Text × Value)) (name : String) : Slot → Prop
  | given {before after : List (Text × Value)} {v : Value}
      (split : ms = before ++ (some name, v) :: after)
      (only : ∀ m ∈ before ++ after, m.1 ≠ some name) : MemberFor ms name (.given v)
  | absent (none : ∀ m ∈ ms, m.1 ≠ some name) : MemberFor ms name .absent

theorem memberFor_iff {ms : List (Text × Value)} {name : String} {slot : Slot} :
    MemberFor ms name slot ↔ objectSlot? ms name = some slot := by
  have hother : ∀ {part : List (Text × Value)}, (∀ m ∈ part, m.1 ≠ some name) →
      part.filter (·.1 == some name) = [] := by
    intro part hpart
    rw [List.filter_eq_nil_iff]
    exact fun m hm hname => hpart m hm (eq_of_beq hname)
  unfold objectSlot? membersNamed
  constructor
  · rintro (⟨rfl, honly⟩ | hnone)
    · have hbefore := hother fun m hm => honly m (List.mem_append_left _ hm)
      have hafter := hother fun m hm => honly m (List.mem_append_right _ hm)
      simp [List.filter_append, hbefore, hafter]
    · simp [hother hnone]
  · intro h
    split at h
    · rename_i hempty
      obtain rfl := Option.some.inj h
      refine .absent fun m hm hname => ?_
      have hfilter := List.map_eq_nil_iff.mp hempty
      exact List.filter_eq_nil_iff.mp hfilter m hm (beq_iff_eq.mpr hname)
    · rename_i v hsingle
      obtain rfl := Option.some.inj h
      obtain ⟨⟨_, _⟩, hfilter, rfl⟩ := List.map_eq_singleton_iff.mp hsingle
      obtain ⟨before, after, rfl, hbefore, hname, hafter⟩ := List.filter_eq_cons_iff.mp hfilter
      obtain rfl := eq_of_beq hname
      refine .given rfl fun m hm heq => ?_
      rcases List.mem_append.mp hm with hm | hm
      · exact hbefore m hm (beq_iff_eq.mpr heq)
      · exact List.filter_eq_nil_iff.mp hafter m hm (beq_iff_eq.mpr heq)
    · cases h

/-- What a value has for the fields of a record. The names in an object are texts, and an array ends
no later than the fields do. -/
inductive Value.HasFields (names : List String) : Value → List Slot → Prop
  | object {ms : List (Text × Value)} {slots : List Slot}
      (texts : ∀ m ∈ ms, m.1.isSome = true)
      (members : List.Forall₂ (MemberFor ms) names slots) : HasFields names (.object ms) slots
  | array {vs : List Value} {missing : Nat} (fits : vs.length + missing = names.length) :
      HasFields names (.array vs) (vs.map .given ++ List.replicate missing .cut)

theorem Value.hasFields_iff {names : List String} {v : Value} {slots : List Slot} :
    v.HasFields names slots ↔ v.slots? names = some slots := by
  have hmembers : ∀ ms, List.Forall₂ (MemberFor ms) names slots ↔
      names.mapM (objectSlot? ms) = some slots :=
    fun ms => forall₂_iff_mapM (f := objectSlot? ms) fun _ _ => memberFor_iff
  constructor
  · rintro (⟨htexts, hslots⟩ | hfits)
    · rw [slots?, objectSlots?, if_pos (List.all_eq_true.mpr htexts)]
      exact (hmembers _).mp hslots
    · rename_i vs missing
      have hmissing : names.length - vs.length = missing := by omega
      rw [slots?, arraySlots?, if_pos (by omega), hmissing]
  · intro h
    unfold slots? at h
    split at h
    · rename_i ms
      unfold objectSlots? at h
      split at h
      · rename_i htexts
        exact .object (List.all_eq_true.mp htexts) ((hmembers ms).mpr h)
      · cases h
    · rename_i vs
      unfold arraySlots? at h
      split at h
      · obtain rfl := Option.some.inj h
        exact .array (by omega)
      · cases h
    · cases h

theorem Slot.required?_eq_some_iff {α : Type} {read : Value → Option α} {slot : Slot} {a : α} :
    slot.required? read = some a ↔ ∃ v, slot = .given v ∧ read v = some a := by
  cases slot with
  | given v => simp [required?]
  | absent => simp [required?]
  | cut => simp [required?]

theorem Value.nullable?_eq_some_iff {α : Type} {read : Value → Option α} {v : Value}
    {a : Option α} :
    v.nullable? read = some a ↔
      v = .null ∧ a = none ∨ v ≠ .null ∧ ∃ b, read v = some b ∧ some b = a := by
  cases v with
  | null => simp [nullable?, eq_comm]
  | _ => simp [nullable?]

theorem Value.string?_eq_some_iff {v : Value} {s : String} : v.string? = some s ↔ v = .text s := by
  cases v with
  | string t => simp [string?, text]
  | _ => simp [string?, text]

/-- A number that is written with digits alone. -/
inductive Value.IsNatural : Value → Nat → Prop
  | digits {literal : String} (plain : ∀ c ∈ literal.toList, c.isDigit = true) :
      IsNatural (.number literal) (natOfDigits literal.toList)

theorem Value.natUpTo?_eq_some_iff {limit n : Nat} {v : Value} :
    v.natUpTo? limit = some n ↔ v.IsNatural n ∧ n ≤ limit := by
  constructor
  · intro h
    cases v with
    | number literal =>
      obtain ⟨hliteral, hle⟩ := Option.filter_eq_some_iff.mp h
      obtain ⟨hplain, rfl⟩ := integer?_ofLiteral_eq_some_iff.mp hliteral
      exact ⟨.digits hplain, of_decide_eq_true hle⟩
    | _ => cases h
  · rintro ⟨⟨hplain⟩, hle⟩
    exact Option.filter_eq_some_iff.mpr
      ⟨integer?_ofLiteral_eq_some_iff.mpr ⟨hplain, rfl⟩, decide_eq_true hle⟩

end Triage.Json
