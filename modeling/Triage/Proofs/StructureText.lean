import Mathlib
import Triage.Proofs.Json.Decode
import Triage.Proofs.Latest

/-!
# Structure reports as they are read back

The text of a structure report holds all of it. A map is written in the order of its paths, which
may be any texts, and every path once, so the map that is put together from what is read is the one
that was written.
-/

namespace Triage

open Json

namespace CallRecord

/-- The count of arguments and the line are integers of 64 bits. -/
def FitsWords (c : CallRecord) : Prop := c.args ≤ maxWord ∧ c.line ≤ maxWord

instance (c : CallRecord) : Decidable c.FitsWords :=
  inferInstanceAs (Decidable (c.args ≤ maxWord ∧ c.line ≤ maxWord))

theorem isPlain_toValue (c : CallRecord) : c.toValue.IsPlain :=
  isPlain_ofMembers (by simp [isPlain_text, isPlain_nat])

theorem ofValue?_toValue {c : CallRecord} (h : c.FitsWords) : ofValue? c.toValue = some c := by
  rw [ofValue?, toValue, slots?_ofMembers (by simp)]
  simp [slotIn, List.lookup, Slot.required?, Value.text, Value.string?, natUpTo?_nat h.1,
    natUpTo?_nat h.2]

end CallRecord

namespace RouteRecord

/-- The line is an integer of 64 bits. -/
def FitsWord (r : RouteRecord) : Prop := r.line ≤ maxWord

instance (r : RouteRecord) : Decidable r.FitsWord := inferInstanceAs (Decidable (r.line ≤ maxWord))

theorem isPlain_toValue (r : RouteRecord) : r.toValue.IsPlain :=
  isPlain_ofMembers (by simp [isPlain_text, isPlain_nat])

theorem ofValue?_toValue {r : RouteRecord} (h : r.FitsWord) : ofValue? r.toValue = some r := by
  rw [ofValue?, toValue, slots?_ofMembers (by simp)]
  simp [slotIn, List.lookup, Slot.required?, Value.text, Value.string?,
    natUpTo?_nat (n := r.line) h]

end RouteRecord

namespace FileRecord

/-- All numbers are integers of 64 bits. -/
def FitsWords (r : FileRecord) : Prop :=
  (∀ c ∈ r.calls, c.FitsWords) ∧ ∀ route ∈ r.routes, route.FitsWord

instance (r : FileRecord) : Decidable r.FitsWords :=
  inferInstanceAs (Decidable ((∀ c ∈ r.calls, c.FitsWords) ∧ ∀ route ∈ r.routes, route.FitsWord))

end FileRecord

/-! ### Maps -/

theorem InOrder.nodup_keys {α : Type} {es : List (String × α)} (h : InOrder es) :
    (es.map (·.1)).Nodup :=
  List.pairwise_map.mpr (h.imp fun {_ _} hlt => String.ne_of_lt hlt)

namespace PathMap

/-- The entries of a map make the map again. -/
theorem ofList_entries {α : Type} {m : PathMap α} (h : InOrder m.entries) :
    ofList m.entries = m := by
  obtain ⟨horder, hperm⟩ := entries_ofList m.entries
  rw [latest_eq_self h.nodup_keys] at hperm
  exact eq_of_perm horder h hperm

end PathMap

namespace StructureReport

variable {α : Type} {toValue : α → Value} {read : Value → Option α} {m : PathMap (List α)}

theorem isPlain_mapValue (m : PathMap (List α)) (h : ∀ a, (toValue a).IsPlain) :
    (mapValue toValue m).IsPlain := by
  refine isPlain_ofMembers fun member hmember => ?_
  obtain ⟨e, -, rfl⟩ := List.mem_map.mp hmember
  exact isPlain_array fun a _ => h a

theorem pairs?_mapValue (h : ∀ e ∈ m.entries, ∀ a ∈ e.2, read (toValue a) = some a) :
    (mapValue toValue m).pairs? (Value.list? read) = some m.entries := by
  obtain ⟨es⟩ := m
  rw [mapValue, Value.ofMembers, Value.pairs?]
  induction es with
  | nil => rfl
  | cons e es ih =>
    have hfirst := list?_map (h e List.mem_cons_self)
    have hrest := ih fun x hx => h x (List.mem_cons_of_mem e hx)
    rw [List.map_cons, List.map_cons, List.mapM_cons, hrest]
    simp [hfirst]

/-- A map is read back when what is in its lists is. -/
theorem map?_mapValue (horder : InOrder m.entries)
    (h : ∀ e ∈ m.entries, ∀ a ∈ e.2, read (toValue a) = some a) :
    map? read (mapValue toValue m) = some m := by
  rw [map?, pairs?_mapValue h, Option.map_some, PathMap.ofList_entries horder]

/-- What a text can hold: maps by path, with integers of 64 bits. -/
structure IsHeld (s : StructureReport) : Prop where
  dependencies : InOrder s.dependencies.entries
  functionCalls : InOrder s.functionCalls.entries
  routes : InOrder s.routes.entries
  callsFit : ∀ e ∈ s.functionCalls.entries, ∀ c ∈ e.2, c.FitsWords
  routesFit : ∀ e ∈ s.routes.entries, ∀ r ∈ e.2, r.FitsWord

theorem isPlain_toValue (s : StructureReport) : s.toValue.IsPlain :=
  isPlain_ofMembers (by simp [isPlain_mapValue, isPlain_text, CallRecord.isPlain_toValue,
    RouteRecord.isPlain_toValue])

theorem ofValue?_toValue {s : StructureReport} (h : s.IsHeld) : ofValue? s.toValue = some s := by
  have hdependencies : map? Value.string? (mapValue .text s.dependencies) = some s.dependencies :=
    map?_mapValue h.dependencies fun _ _ _ _ => rfl
  have hcalls := map?_mapValue h.functionCalls fun e he c hc =>
    CallRecord.ofValue?_toValue (h.callsFit e he c hc)
  have hroutes := map?_mapValue h.routes fun e he r hr =>
    RouteRecord.ofValue?_toValue (h.routesFit e he r hr)
  rw [ofValue?, StructureReport.toValue, slots?_ofMembers (by simp)]
  simp [slotIn, List.lookup, Slot.required?, hdependencies, hcalls, hroutes]

/-- The text of a report holds the report. -/
theorem ofText?_promptText {s : StructureReport} (h : s.IsHeld) :
    ofText? s.promptText = some s := by
  rw [ofText?, promptText, read?_print _ s.isPlain_toValue]
  exact ofValue?_toValue h

end StructureReport

end Triage
