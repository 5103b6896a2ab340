import Triage.Proofs.ByteOrder
import Triage.Proofs.StructureText

/-!
# The last records of all paths

Three maps stand for one, from each path to its last record. An insertion into the three is an
insertion into that one, so whatever is inserted the three have the same paths, and everything that
is asked of a report is answered by the last records.
-/

namespace Triage

variable {α β : Type}

/-! ### Maps with other values -/

namespace PathMap

def mapValues (f : α → β) (m : PathMap α) : PathMap β := ⟨m.entries.map fun e => (e.1, f e.2)⟩

theorem insertEntry_map (f : α → β) (path : String) (value : α) (es : List (String × α)) :
    insertEntry path (f value) (es.map fun e => (e.1, f e.2)) =
      (insertEntry path value es).map fun e => (e.1, f e.2) := by
  induction es with
  | nil => rfl
  | cons e es ih =>
    rw [List.map_cons, insertEntry, insertEntry, ih]
    split
    · rfl
    · split <;> rfl

theorem mapValues_insert (f : α → β) (m : PathMap α) (path : String) (value : α) :
    (m.mapValues f).insert path (f value) = (m.insert path value).mapValues f := by
  rw [mapValues, insert, insertEntry_map]
  rfl

theorem keys_mapValues (f : α → β) (m : PathMap α) : (m.mapValues f).keys = m.keys := by
  simp [keys, mapValues]

theorem get?_mapValues (f : α → β) (m : PathMap α) (path : String) :
    (m.mapValues f).get? path = (m.get? path).map f := by
  rw [get?, get?, mapValues, List.find?_map, Option.map_map, Option.map_map]
  rfl

theorem inOrder_mapValues {f : α → β} {m : PathMap α} (h : InOrder m.entries) :
    InOrder (m.mapValues f).entries :=
  List.pairwise_map.mpr h

theorem get?_eq_some_iff {m : PathMap α} (h : InOrder m.entries) {path : String} {value : α} :
    m.get? path = some value ↔ (path, value) ∈ m.entries := by
  refine ⟨fun hget => ?_, get?_of_mem h⟩
  obtain ⟨e, he, rfl⟩ := Option.map_eq_some_iff.mp hget
  obtain rfl : e.1 = path := by simpa using List.find?_some he
  exact List.mem_of_find?_eq_some he

end PathMap

/-! ### The last of several records -/

/-- A record that no other with its path comes after. -/
def IsLast (rs : List FileRecord) (r : FileRecord) : Prop :=
  ∃ before after, rs = before ++ r :: after ∧ ∀ x ∈ after, x.path ≠ r.path

theorem isLast_cons {x r : FileRecord} {rs : List FileRecord} :
    IsLast (x :: rs) r ↔ (r = x ∧ ∀ y ∈ rs, y.path ≠ x.path) ∨ IsLast rs r := by
  constructor
  · rintro ⟨before, after, hrs, hafter⟩
    cases before with
    | nil =>
      obtain ⟨rfl, rfl⟩ := List.cons.inj hrs
      exact .inl ⟨rfl, hafter⟩
    | cons y before =>
      obtain ⟨rfl, rfl⟩ := List.cons.inj hrs
      exact .inr ⟨before, after, rfl, hafter⟩
  · rintro (⟨rfl, hafter⟩ | ⟨before, after, rfl, hafter⟩)
    · exact ⟨[], rs, rfl, hafter⟩
    · exact ⟨x :: before, after, rfl, hafter⟩

theorem mem_latest_iff {rs : List FileRecord} {r : FileRecord} :
    r ∈ latest (·.path) rs ↔ IsLast rs r := by
  induction rs with
  | nil => simp [latest, IsLast]
  | cons x rs ih =>
    rw [latest_cons, isLast_cons, ← ih]
    split
    · rename_i hlater
      obtain ⟨y, hy, hname⟩ := hlater
      exact ⟨.inr, Or.rec (fun h => absurd hname (h.2 y hy)) id⟩
    · rename_i hnone
      push Not at hnone
      rw [List.mem_cons]
      exact or_congr_left (and_iff_left hnone).symm

theorem IsLast.mem {rs : List FileRecord} {r : FileRecord} (h : IsLast rs r) : r ∈ rs := by
  obtain ⟨before, after, rfl, -⟩ := h
  simp

theorem exists_isLast {rs : List FileRecord} {r : FileRecord} (h : r ∈ rs) :
    ∃ last, IsLast rs last ∧ last.path = r.path := by
  obtain ⟨last, hlast, hpath⟩ := exists_mem_latest (·.path) h
  exact ⟨last, mem_latest_iff.mp hlast, hpath⟩

/-! ### A report as one map -/

/-- The last record of each path. -/
def lastRecords (rs : List FileRecord) : PathMap FileRecord :=
  .ofList (rs.map fun r => (r.path, r))

theorem lastRecords_append_singleton (rs : List FileRecord) (r : FileRecord) :
    lastRecords (rs ++ [r]) = (lastRecords rs).insert r.path r := by
  rw [lastRecords, List.map_append, List.map_cons, List.map_nil, PathMap.ofList_append_singleton,
    lastRecords]

theorem inOrder_lastRecords (rs : List FileRecord) : InOrder (lastRecords rs).entries :=
  (PathMap.entries_ofList _).1

theorem mem_lastRecords_iff {rs : List FileRecord} {path : String} {r : FileRecord} :
    (path, r) ∈ (lastRecords rs).entries ↔ r.path = path ∧ IsLast rs r := by
  obtain ⟨-, hperm⟩ := PathMap.entries_ofList (rs.map fun r => (r.path, r))
  rw [latest, List.pwFilter_map] at hperm
  rw [lastRecords, hperm.mem_iff, ← mem_latest_iff, List.mem_map]
  constructor
  · rintro ⟨x, hx, hpair⟩
    obtain ⟨rfl, rfl⟩ := Prod.mk.inj hpair
    exact ⟨rfl, hx⟩
  · rintro ⟨rfl, hr⟩
    exact ⟨r, hr, rfl⟩

theorem get?_lastRecords_iff {rs : List FileRecord} {path : String} {r : FileRecord} :
    (lastRecords rs).get? path = some r ↔ r.path = path ∧ IsLast rs r := by
  rw [PathMap.get?_eq_some_iff (inOrder_lastRecords rs), mem_lastRecords_iff]

/-- The map is told by what the last records are. -/
theorem lastRecords_congr {rs rs' : List FileRecord} (h : ∀ r, IsLast rs r ↔ IsLast rs' r) :
    lastRecords rs = lastRecords rs' := by
  refine PathMap.eq_of_perm (inOrder_lastRecords rs) (inOrder_lastRecords rs') ?_
  refine (List.perm_ext_iff_of_nodup ?_ ?_).mpr fun e => ?_
  · exact (inOrder_lastRecords rs).nodup_keys.of_map
  · exact (inOrder_lastRecords rs').nodup_keys.of_map
  · obtain ⟨path, r⟩ := e
    rw [mem_lastRecords_iff, mem_lastRecords_iff, h]

theorem mem_keys_lastRecords_iff {rs : List FileRecord} {path : String} :
    path ∈ (lastRecords rs).keys ↔ path ∈ rs.map (·.path) := by
  rw [PathMap.keys, List.mem_map, List.mem_map]
  constructor
  · rintro ⟨⟨key, r⟩, he, rfl⟩
    obtain ⟨hpath, hlast⟩ := mem_lastRecords_iff.mp he
    exact ⟨r, hlast.mem, hpath⟩
  · rintro ⟨r, hr, rfl⟩
    obtain ⟨last, hlast, hpath⟩ := exists_isLast hr
    exact ⟨(r.path, last), mem_lastRecords_iff.mpr ⟨hpath, hlast⟩, rfl⟩

theorem size_lastRecords (rs : List FileRecord) :
    (lastRecords rs).size = (rs.map (·.path)).toFinset.card := by
  have hkeys : (lastRecords rs).keys.toFinset = (rs.map (·.path)).toFinset := by
    ext path
    rw [List.mem_toFinset, List.mem_toFinset, mem_keys_lastRecords_iff]
  have hnodup : (lastRecords rs).keys.Nodup := (inOrder_lastRecords rs).nodup_keys
  rw [← hkeys, List.toFinset_card_of_nodup hnodup, PathMap.keys, List.length_map, PathMap.size]

/-- The last records stand in the map one after the other, in the order of their paths. -/
theorem exists_entries_eq (rs : List FileRecord) :
    ∃ last : List FileRecord, (lastRecords rs).entries = last.map (fun r => (r.path, r)) ∧
      last.Pairwise (·.path < ·.path) ∧ ∀ r, r ∈ last ↔ IsLast rs r := by
  have hentries : (lastRecords rs).entries =
      ((lastRecords rs).entries.map (·.2)).map fun r => (r.path, r) := by
    -- The key of an entry is the path of its record.
    rw [List.map_map]
    refine (List.map_id' _).symm.trans (List.map_congr_left fun e he => ?_)
    exact Prod.ext (mem_lastRecords_iff.mp he).1.symm rfl
  refine ⟨_, hentries, ?_, fun r => ?_⟩
  · have horder := inOrder_lastRecords rs
    rw [InOrder, hentries, List.pairwise_map] at horder
    exact horder
  · rw [List.mem_map]
    constructor
    · rintro ⟨e, he, rfl⟩
      exact (mem_lastRecords_iff.mp he).2
    · intro hlast
      exact ⟨(r.path, r), mem_lastRecords_iff.mpr ⟨rfl, hlast⟩, rfl⟩

namespace StructureReport

/-- The report whose three maps hold the parts of the records in a map. -/
def ofRecords (m : PathMap FileRecord) : StructureReport where
  dependencies := m.mapValues FileRecord.dependencies
  functionCalls := m.mapValues FileRecord.calls
  routes := m.mapValues FileRecord.routes

/-- An insertion into the three maps is one into the map of records. -/
theorem insert_ofRecords (m : PathMap FileRecord) (r : FileRecord) :
    (ofRecords m).insert r = ofRecords (m.insert r.path r) := by
  simp only [insert, ofRecords, PathMap.mapValues_insert]

theorem allRoutes_ofRecords (m : PathMap FileRecord) :
    (ofRecords m).allRoutes = m.entries.flatMap fun e => e.2.routes.map fun r => (e.1, r) := by
  rw [allRoutes]
  exact List.flatMap_map _ _ _

/-- After any insertions the three maps are those of the last records. -/
theorem insertAll_eq (rs : List FileRecord) : insertAll {} rs = ofRecords (lastRecords rs) := by
  induction rs using List.reverseRecOn with
  | nil => rfl
  | append_singleton rs r ih =>
    rw [lastRecords_append_singleton, ← insert_ofRecords, ← ih, insertAll, List.foldl_append]
    rfl

/-- What is found under a path is its last record: the lists of a record that is there are in all
three maps. -/
theorem file?_insertAll_eq (rs : List FileRecord) (path : String) :
    (insertAll {} rs).file? path = (lastRecords rs).get? path := by
  rw [insertAll_eq, file?, ofRecords, PathMap.get?_mapValues, PathMap.get?_mapValues,
    PathMap.get?_mapValues]
  cases hget : (lastRecords rs).get? path with
  | none => rfl
  | some r =>
    obtain ⟨rfl, -⟩ := get?_lastRecords_iff.mp hget
    rfl

theorem file?_insertAll_eq_some_iff {rs : List FileRecord} {path : String} {r : FileRecord} :
    (insertAll {} rs).file? path = some r ↔ r.path = path ∧ IsLast rs r := by
  rw [file?_insertAll_eq, get?_lastRecords_iff]

theorem file?_insertAll_eq_none_iff {rs : List FileRecord} {path : String} :
    (insertAll {} rs).file? path = none ↔ ∀ r ∈ rs, r.path ≠ path := by
  rw [Option.eq_none_iff_forall_ne_some]
  constructor
  · rintro hnone r hr rfl
    obtain ⟨last, hlast, hpath⟩ := exists_isLast hr
    exact hnone last (file?_insertAll_eq_some_iff.mpr ⟨hpath, hlast⟩)
  · intro hnone r hfile
    obtain ⟨hpath, hlast⟩ := file?_insertAll_eq_some_iff.mp hfile
    exact hnone r hlast.mem hpath

theorem insertAll_eq_iff {rs rs' : List FileRecord} :
    insertAll {} rs = insertAll {} rs' ↔ ∀ r, IsLast rs r ↔ IsLast rs' r := by
  constructor
  · intro h r
    have hfile : (insertAll {} rs).file? r.path = some r ↔
        (insertAll {} rs').file? r.path = some r := by rw [h]
    simpa only [file?_insertAll_eq_some_iff, true_and] using hfile
  · intro h
    rw [insertAll_eq, insertAll_eq, lastRecords_congr h]

theorem isHeld_insertAll {rs : List FileRecord} (h : ∀ r ∈ rs, r.FitsWords) :
    (insertAll {} rs).IsHeld := by
  have horder := inOrder_lastRecords rs
  have hfits : ∀ e ∈ (lastRecords rs).entries, e.2.FitsWords := fun e he =>
    h e.2 (mem_lastRecords_iff.mp he).2.mem
  rw [insertAll_eq]
  refine ⟨PathMap.inOrder_mapValues horder, PathMap.inOrder_mapValues horder,
    PathMap.inOrder_mapValues horder, fun e he => ?_, fun e he => ?_⟩
  · obtain ⟨entry, hentry, rfl⟩ := List.mem_map.mp he
    exact (hfits entry hentry).1
  · obtain ⟨entry, hentry, rfl⟩ := List.mem_map.mp he
    exact (hfits entry hentry).2

/-- However records are inserted, a report is the last record of each path: the three maps have the
same paths, so no list is ever made up; what is found, counted and listed is that of the last
records, listed in the order of the bytes of their paths; two reports are the same when their last
records are; and the text of a report holds all of it. -/
theorem last_record_wins (rs : List FileRecord) :
    ((insertAll {} rs).functionCalls.keys = (insertAll {} rs).dependencies.keys ∧
      (insertAll {} rs).routes.keys = (insertAll {} rs).dependencies.keys) ∧
    (∀ r, IsLast rs r →
      (insertAll {} rs).dependencies.get? r.path = some r.dependencies ∧
      (insertAll {} rs).functionCalls.get? r.path = some r.calls ∧
      (insertAll {} rs).routes.get? r.path = some r.routes) ∧
    (∀ path r, (insertAll {} rs).file? path = some r ↔ r.path = path ∧ IsLast rs r) ∧
    (∀ path, (insertAll {} rs).file? path = none ↔ ∀ r ∈ rs, r.path ≠ path) ∧
    (insertAll {} rs).fileCount = (rs.map (·.path)).toFinset.card ∧
    (∃ last : List FileRecord,
      last.Pairwise (fun r r' => r.path.toUTF8.toList < r'.path.toUTF8.toList) ∧
      (∀ r, r ∈ last ↔ IsLast rs r) ∧
      (insertAll {} rs).allRoutes =
        last.flatMap fun r => r.routes.map fun route => (r.path, route)) ∧
    (∀ rs', insertAll {} rs = insertAll {} rs' ↔ ∀ r, IsLast rs r ↔ IsLast rs' r) ∧
    ((∀ r ∈ rs, r.FitsWords) →
      ofText? (insertAll {} rs).promptText = some (insertAll {} rs)) := by
  refine ⟨?_, fun r hlast => ?_, fun _ _ => file?_insertAll_eq_some_iff,
    fun _ => file?_insertAll_eq_none_iff, ?_, ?_, fun _ => insertAll_eq_iff,
    fun h => ofText?_promptText (isHeld_insertAll h)⟩
  · simp only [insertAll_eq, ofRecords, PathMap.keys_mapValues, and_self]
  · have hget := get?_lastRecords_iff.mpr ⟨rfl, hlast⟩
    simp only [insertAll_eq, ofRecords, PathMap.get?_mapValues, hget, Option.map_some, and_self]
  · rw [insertAll_eq, ← size_lastRecords]
    exact List.length_map _
  · obtain ⟨last, hentries, horder, hlast⟩ := exists_entries_eq rs
    refine ⟨last, horder.imp Text.toUTF8_lt_iff.mpr, hlast, ?_⟩
    rw [insertAll_eq, allRoutes_ofRecords, hentries, List.flatMap_map]

/-- A record without calls in the place of one with a call, and a path above U+FFFF. -/
def replacedRecords : List FileRecord :=
  [⟨"\uffff.py", ["os"], [⟨"f", 1, 2⟩], [⟨"/old", "f", 1⟩]⟩,
    ⟨"😀\n.py", [], [], [⟨"/", "index", Json.maxWord⟩]⟩,
    ⟨"\uffff.py", [], [], [⟨"/new", "f", 3⟩]⟩]

/-- The record that was replaced is gone with its call, and the two that are left are read back. -/
theorem last_record_wins_replaced :
    (∀ r ∈ replacedRecords, r.FitsWords) ∧
      (insertAll {} replacedRecords).fileCount = 2 ∧
      (insertAll {} replacedRecords).functionCalls.get? "\uffff.py" = some [] ∧
      (insertAll {} replacedRecords).file? "\uffff.py" =
        some ⟨"\uffff.py", [], [], [⟨"/new", "f", 3⟩]⟩ ∧
      insertAll {} replacedRecords = insertAll {} replacedRecords.tail ∧
      ofText? (insertAll {} replacedRecords).promptText = some (insertAll {} replacedRecords) := by
  have hfits : ∀ r ∈ replacedRecords, r.FitsWords := by decide
  have hlast : IsLast replacedRecords ⟨"\uffff.py", [], [], [⟨"/new", "f", 3⟩]⟩ :=
    ⟨replacedRecords.take 2, [], rfl, List.forall_mem_nil _⟩
  have hsame : ∀ r, IsLast replacedRecords r ↔ IsLast replacedRecords.tail r := fun r =>
    isLast_cons.trans (or_iff_right fun h =>
      h.2 ⟨"\uffff.py", [], [], [⟨"/new", "f", 3⟩]⟩ (by decide) rfl)
  obtain ⟨-, hcolumns, hfile, -, hcount, -, hequal, htext⟩ := last_record_wins replacedRecords
  refine ⟨hfits, ?_, (hcolumns _ hlast).2.1, (hfile _ _).mpr ⟨rfl, hlast⟩, (hequal _).mpr hsame,
    htext hfits⟩
  rw [hcount]
  decide

end StructureReport

end Triage
