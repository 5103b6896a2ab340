import Triage.Proofs.Json.RoundTrip

/-!
# Records taken apart as they were put together

An object whose names differ gives each field the member of its name, whatever order the fields are
asked in. What is written for a natural number or a text can be held before its type is known.
-/

namespace Triage.Json

/-- The slot of a field in an object whose names differ. -/
def slotIn (ms : List (String × Value)) (name : String) : Slot :=
  match ms.lookup name with
  | some v => .given v
  | none => .absent

theorem membersNamed_of_not_mem {ms : List (String × Value)} {name : String}
    (h : name ∉ ms.map (·.1)) : membersNamed name (ms.map fun m => (some m.1, m.2)) = [] := by
  rw [membersNamed, List.map_eq_nil_iff, List.filter_eq_nil_iff]
  intro m hm heq
  obtain ⟨member, hmember, rfl⟩ := List.mem_map.mp hm
  have hname : member.1 = name := Option.some.inj (eq_of_beq heq)
  exact h (hname ▸ List.mem_map_of_mem hmember)

theorem objectSlot?_ofMembers {ms : List (String × Value)} (h : (ms.map (·.1)).Nodup)
    (name : String) :
    objectSlot? (ms.map fun m => (some m.1, m.2)) name = some (slotIn ms name) := by
  induction ms with
  | nil => rfl
  | cons m ms ih =>
    obtain ⟨first, v⟩ := m
    obtain ⟨hfirst, hms⟩ := List.nodup_cons.mp h
    by_cases hname : first = name
    · subst hname
      have hnone := membersNamed_of_not_mem hfirst
      rw [membersNamed] at hnone
      simp [objectSlot?, membersNamed, slotIn, hnone]
    · have hrest := ih hms
      have hbeq : (name == first) = false := beq_eq_false_iff_ne.mpr (Ne.symm hname)
      simpa [objectSlot?, membersNamed, slotIn, List.lookup_cons, hname, hbeq] using hrest

/-- The slots of fields in an object whose names differ. -/
theorem slots?_ofMembers {ms : List (String × Value)} (h : (ms.map (·.1)).Nodup)
    (names : List String) :
    (Value.ofMembers ms).slots? names = some (names.map (slotIn ms)) := by
  have htexts : (ms.map fun m => (some m.1, m.2)).all (·.1.isSome) = true := by simp
  rw [Value.ofMembers, Value.slots?, objectSlots?, if_pos htexts]
  induction names with
  | nil => rfl
  | cons name names ih => simp [objectSlot?_ofMembers h, ih]

/-- A list is read back when every item of it is. -/
theorem list?_map {α : Type} {toValue : α → Value} {read : Value → Option α} {as : List α}
    (h : ∀ a ∈ as, read (toValue a) = some a) :
    (Value.array (as.map toValue)).list? read = some as := by
  rw [Value.list?]
  induction as with
  | nil => rfl
  | cons a as ih =>
    have hfirst := h a List.mem_cons_self
    have hrest := ih fun b hb => h b (List.mem_cons_of_mem a hb)
    simp [hfirst, hrest]

theorem isHoldable_text (depth : Nat) (s : String) : (Value.text s).isHoldable depth = true := rfl

theorem isHoldable_nat (depth : Nat) {n : Nat} (h : n ≤ maxWord) :
    (Value.nat n).isHoldable depth = true := by
  simp [Value.nat, Value.isHoldable, Numeral.inRange, ofLiteral_toDigits, h]

theorem areHoldableMembers_map {ms : List (String × Value)} {depth : Nat}
    (h : ∀ m ∈ ms, m.2.isHoldable depth = true) :
    areHoldableMembers depth (ms.map fun m => (some m.1, m.2)) = true := by
  induction ms with
  | nil => rfl
  | cons m ms ih =>
    have hfirst := h m List.mem_cons_self
    have hrest := ih fun n hn => h n (List.mem_cons_of_mem m hn)
    simp [areHoldableMembers, hfirst, hrest]

theorem isHoldable_ofMembers {ms : List (String × Value)} {depth : Nat} (hdepth : 0 < depth)
    (h : ∀ m ∈ ms, m.2.isHoldable (depth - 1) = true) :
    (Value.ofMembers ms).isHoldable depth = true := by
  rw [Value.ofMembers, Value.isHoldable, areHoldableMembers_map h]
  simp [hdepth]

theorem isPlain_text (s : String) : (Value.text s).IsPlain := rfl

theorem isPlain_nat (n : Nat) : (Value.nat n).IsPlain := ⟨n, rfl⟩

theorem isPlain_ofMembers {ms : List (String × Value)} (h : ∀ m ∈ ms, m.2.IsPlain) :
    (Value.ofMembers ms).IsPlain := by
  rw [Value.ofMembers, Value.IsPlain]
  induction ms with
  | nil => trivial
  | cons m ms ih =>
    exact ⟨rfl, h m List.mem_cons_self, ih fun n hn => h n (List.mem_cons_of_mem m hn)⟩

theorem isPlain_array {α : Type} {toValue : α → Value} {as : List α}
    (h : ∀ a ∈ as, (toValue a).IsPlain) : (Value.array (as.map toValue)).IsPlain := by
  rw [Value.IsPlain]
  induction as with
  | nil => trivial
  | cons a as ih =>
    exact ⟨h a List.mem_cons_self, ih fun b hb => h b (List.mem_cons_of_mem a hb)⟩

end Triage.Json
