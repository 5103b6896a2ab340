import Mathlib.Data.List.Nodup
import Triage.StructureReport

/-!
# Looking up what was inserted

An insertion is seen under its own path and nowhere else. None of this needs the entries to be in
order.
-/

namespace Triage

variable {α : Type}

theorem find?_entry_cons (e : String × α) (es : List (String × α)) (q : String) :
    (e :: es).find? (·.1 == q) = if q = e.1 then some e else es.find? (·.1 == q) := by
  by_cases h : q = e.1
  · simp [h]
  · have hne : (e.1 == q) = false := by simpa using fun h' : e.1 = q => h h'.symm
    rw [List.find?_cons, hne, if_neg h]

theorem find?_insertEntry (path : String) (value : α) (q : String) (es : List (String × α)) :
    (insertEntry path value es).find? (·.1 == q) =
      if q = path then some (path, value) else es.find? (·.1 == q) := by
  induction es with
  | nil => exact find?_entry_cons (path, value) [] q
  | cons e es ih =>
    rw [insertEntry]
    split
    · exact find?_entry_cons (path, value) (e :: es) q
    · split
      · rename_i he
        rw [find?_entry_cons, find?_entry_cons, he]
        split <;> rfl
      · rename_i hne
        rw [find?_entry_cons, find?_entry_cons, ih]
        by_cases h : q = path
        · have he : ¬ q = e.1 := fun h' => hne (h.symm.trans h')
          rw [if_neg he, if_pos h, if_pos h]
        · rw [if_neg h, if_neg h]

namespace PathMap

theorem get?_insert (m : PathMap α) (path : String) (value : α) (q : String) :
    (m.insert path value).get? q = if q = path then some value else m.get? q := by
  unfold get? insert
  rw [find?_insertEntry]
  by_cases h : q = path <;> simp [h]

end PathMap

namespace StructureReport

/-- The report after the records of several files. -/
def insertAll (s : StructureReport) (rs : List FileRecord) : StructureReport :=
  rs.foldl insert s

theorem functionCalls_insertAll_of_not_mem (s : StructureReport) {path : String}
    (rs : List FileRecord) (h : ∀ r ∈ rs, r.path ≠ path) :
    (s.insertAll rs).functionCalls.get? path = s.functionCalls.get? path := by
  induction rs generalizing s with
  | nil => rfl
  | cons r rs ih =>
    have hne : path ≠ r.path := fun he => h r List.mem_cons_self he.symm
    rw [insertAll, List.foldl_cons, ← insertAll,
      ih (s.insert r) fun x hx => h x (List.mem_cons_of_mem r hx)]
    simp [insert, PathMap.get?_insert, hne]

/-- Of files with different paths every one keeps its calls. -/
theorem functionCalls_insertAll (s : StructureReport) (rs : List FileRecord)
    (distinct : (rs.map (·.path)).Nodup) {r : FileRecord} (hr : r ∈ rs) :
    (s.insertAll rs).functionCalls.get? r.path = some r.calls := by
  induction rs generalizing s with
  | nil => cases hr
  | cons x rs ih =>
    obtain ⟨hx, hrs⟩ := List.nodup_cons.mp distinct
    rw [insertAll, List.foldl_cons, ← insertAll]
    rcases List.mem_cons.mp hr with rfl | hr
    · rw [functionCalls_insertAll_of_not_mem]
      · simp [insert, PathMap.get?_insert]
      · intro y hy he
        exact hx (List.mem_map.mpr ⟨y, hy, he⟩)
    · exact ih (s.insert x) hrs hr

end StructureReport

end Triage
