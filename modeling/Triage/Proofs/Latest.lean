import Mathlib
import Triage.Proofs.PathMap

/-!
# What insertions leave

An ordered list of entries is told by the entries in it, and an insertion changes exactly one. So
a structure report holds, in each of its three maps, the last record of every path and nothing else.
-/

namespace Triage

variable {α β : Type}

/-- Entries by path, each path once. -/
def InOrder (es : List (String × α)) : Prop := es.Pairwise (·.1 < ·.1)

/-- What is left of a list when each member gives way to a later one with the same name. -/
def latest (name : β → String) (l : List β) : List β := l.pwFilter fun x y => name x ≠ name y

theorem lt_of_not_lt_of_ne {p q : String} (h : ¬ p < q) (hne : p ≠ q) : q < p :=
  Decidable.byContradiction fun h' => hne (String.le_antisymm h' h)

theorem mem_insertEntry {path : String} {value : α} {es : List (String × α)} {e : String × α}
    (h : e ∈ insertEntry path value es) : e = (path, value) ∨ e ∈ es := by
  induction es with
  | nil => exact Or.inl (List.mem_singleton.mp h)
  | cons x es ih =>
    rw [insertEntry] at h
    split at h
    · exact List.mem_cons.mp h
    · split at h
      · exact (List.mem_cons.mp h).imp_right (List.mem_cons_of_mem x)
      · rcases List.mem_cons.mp h with rfl | h
        · exact Or.inr List.mem_cons_self
        · exact (ih h).imp_right (List.mem_cons_of_mem x)

theorem InOrder.insertEntry {path : String} {value : α} {es : List (String × α)}
    (h : InOrder es) : InOrder (insertEntry path value es) := by
  induction es with
  | nil => exact List.pairwise_singleton _ _
  | cons x es ih =>
    obtain ⟨hx, hes⟩ := List.pairwise_cons.mp h
    rw [Triage.insertEntry]
    split
    · rename_i hlt
      refine List.pairwise_cons.mpr ⟨fun e he => ?_, h⟩
      rcases List.mem_cons.mp he with rfl | he
      · exact hlt
      · exact String.lt_trans hlt (hx e he)
    · split
      · rename_i heq
        exact List.pairwise_cons.mpr ⟨fun e he => heq ▸ hx e he, hes⟩
      · rename_i hlt hne
        refine List.pairwise_cons.mpr ⟨fun e he => ?_, ih hes⟩
        rcases mem_insertEntry he with rfl | he
        · exact lt_of_not_lt_of_ne hlt hne
        · exact hx e he

theorem filter_path_eq_self {path : String} {es : List (String × α)}
    (h : ∀ e ∈ es, path < e.1) : es.filter (·.1 != path) = es := by
  rw [List.filter_eq_self]
  intro e he
  have hne : e.1 ≠ path := fun heq => String.lt_irrefl path (heq ▸ h e he)
  simpa using hne

/-- An insertion puts one entry in and takes out the one that had its path. -/
theorem insertEntry_perm {path : String} {value : α} {es : List (String × α)} (h : InOrder es) :
    (insertEntry path value es).Perm ((path, value) :: es.filter (·.1 != path)) := by
  induction es with
  | nil => exact .refl _
  | cons x es ih =>
    obtain ⟨hx, hes⟩ := List.pairwise_cons.mp h
    rw [insertEntry]
    split
    · rename_i hlt
      have hall : ∀ e ∈ x :: es, path < e.1 := by
        intro e he
        rcases List.mem_cons.mp he with rfl | he
        · exact hlt
        · exact String.lt_trans hlt (hx e he)
      rw [filter_path_eq_self hall]
    · split
      · rename_i heq
        rw [List.filter_cons_of_neg (by simp [heq]), filter_path_eq_self fun e he => heq ▸ hx e he]
      · rename_i hne
        rw [List.filter_cons_of_pos (by simpa using fun h' : x.1 = path => hne h'.symm)]
        exact ((ih hes).cons x).trans (.swap _ _ _)

theorem forall_mem_latest_ne {name : β → String} {x : β} {l : List β} :
    (∀ y ∈ latest name l, name x ≠ name y) ↔ ∀ y ∈ l, name x ≠ name y :=
  List.forall_mem_pwFilter (fun {_ _ _} hne => or_iff_not_imp_left.mpr fun hxy hyz =>
    hne ((not_not.mp hxy).trans hyz)) x l

theorem latest_cons (name : β → String) (x : β) (l : List β) :
    latest name (x :: l) =
      if ∃ y ∈ l, name y = name x then latest name l else x :: latest name l := by
  split
  · rename_i hlater
    obtain ⟨y, hy, hname⟩ := hlater
    exact List.pwFilter_cons_of_neg fun h => forall_mem_latest_ne.mp h y hy hname.symm
  · rename_i hlast
    exact List.pwFilter_cons_of_pos
      (forall_mem_latest_ne.mpr fun y hy hname => hlast ⟨y, hy, hname.symm⟩)

theorem latest_append_singleton (name : β → String) (l : List β) (x : β) :
    latest name (l ++ [x]) = (latest name l).filter (name · != name x) ++ [x] := by
  induction l with
  | nil => rfl
  | cons y l ih =>
    rw [List.cons_append, latest_cons, latest_cons, ih]
    by_cases hlater : ∃ z ∈ l, name z = name y
    · obtain ⟨z, hz, hname⟩ := hlater
      rw [if_pos ⟨z, List.mem_append_left _ hz, hname⟩, if_pos ⟨z, hz, hname⟩]
    · rw [if_neg hlater]
      by_cases hxy : name x = name y
      · rw [if_pos ⟨x, by simp, hxy⟩, List.filter_cons_of_neg (by simp [hxy])]
      · have hnone : ¬ ∃ z ∈ l ++ [x], name z = name y := by
          rintro ⟨z, hz, hname⟩
          rcases List.mem_append.mp hz with hz | hz
          · exact hlater ⟨z, hz, hname⟩
          · exact hxy (List.mem_singleton.mp hz ▸ hname)
        rw [if_neg hnone, List.filter_cons_of_pos (by simpa using fun h : name y = name x => hxy h.symm),
          List.cons_append]

theorem latest_eq_self {name : β → String} {l : List β} (h : (l.map name).Nodup) :
    latest name l = l :=
  List.pwFilter_eq_self.mpr (List.pairwise_map.mp h)

theorem exists_mem_latest (name : β → String) {l : List β} {x : β} (h : x ∈ l) :
    ∃ y ∈ latest name l, name y = name x := by
  by_contra hnone
  push Not at hnone
  exact forall_mem_latest_ne.mp (fun y hy hname => hnone y hy hname.symm) x h rfl

namespace PathMap

theorem ofList_append_singleton (l : List (String × α)) (e : String × α) :
    ofList (l ++ [e]) = (ofList l).insert e.1 e.2 := by
  simp only [ofList, List.foldl_append, List.foldl_cons, List.foldl_nil]

/-- A map of a list keeps, in the order of the paths, the last pair with each path. -/
theorem entries_ofList (l : List (String × α)) :
    InOrder (ofList l).entries ∧ (ofList l).entries.Perm (latest (·.1) l) := by
  induction l using List.reverseRecOn with
  | nil => exact ⟨List.Pairwise.nil, .refl _⟩
  | append_singleton l e ih =>
    obtain ⟨horder, hperm⟩ := ih
    rw [ofList_append_singleton, latest_append_singleton]
    refine ⟨horder.insertEntry, (insertEntry_perm horder).trans ?_⟩
    exact ((hperm.filter _).cons e).trans (List.perm_append_singleton e _).symm

/-- A map is told by its entries, in whatever order they are listed. -/
theorem eq_of_perm {m m' : PathMap α} (h : InOrder m.entries) (h' : InOrder m'.entries)
    (hperm : m.entries.Perm m'.entries) : m = m' := by
  obtain ⟨es⟩ := m
  obtain ⟨es'⟩ := m'
  congr 1
  exact hperm.eq_of_pairwise (fun e e' _ _ hlt hlt' => absurd hlt' (String.lt_asymm hlt)) h h'

/-- Pairs with distinct paths make one map, in whatever order they come. -/
theorem ofList_perm {l l' : List (String × α)} (hperm : l.Perm l')
    (distinct : (l.map (·.1)).Nodup) : ofList l = ofList l' := by
  obtain ⟨horder, hentries⟩ := entries_ofList l
  obtain ⟨horder', hentries'⟩ := entries_ofList l'
  rw [latest_eq_self distinct] at hentries
  rw [latest_eq_self ((hperm.map _).nodup distinct)] at hentries'
  exact eq_of_perm horder horder' (hentries.trans (hperm.trans hentries'.symm))

theorem get?_of_mem {m : PathMap α} (h : InOrder m.entries) {path : String} {value : α}
    (hmem : (path, value) ∈ m.entries) : m.get? path = some value := by
  obtain ⟨es⟩ := m
  induction es with
  | nil => cases hmem
  | cons e es ih =>
    obtain ⟨he, hes⟩ := List.pairwise_cons.mp h
    rw [get?, find?_entry_cons]
    rcases List.mem_cons.mp hmem with rfl | hmem
    · simp
    · have hlt : e.1 < path := he _ hmem
      have hne : path ≠ e.1 := fun heq => String.lt_irrefl path (heq ▸ hlt)
      rw [if_neg hne]
      exact ih hes hmem

end PathMap

namespace StructureReport

/-- A map of a report into which an insertion puts one part of the record. -/
structure IsColumn (column : StructureReport → PathMap α) (part : FileRecord → α) : Prop where
  empty : column {} = {}
  insert : ∀ s r, column (s.insert r) = (column s).insert r.path (part r)

theorem isColumn_dependencies : IsColumn dependencies FileRecord.dependencies :=
  ⟨rfl, fun _ _ => rfl⟩

theorem isColumn_functionCalls : IsColumn functionCalls FileRecord.calls :=
  ⟨rfl, fun _ _ => rfl⟩

theorem isColumn_routes : IsColumn routes FileRecord.routes :=
  ⟨rfl, fun _ _ => rfl⟩

variable {column : StructureReport → PathMap α} {part : FileRecord → α}

theorem IsColumn.insertAll (h : IsColumn column part) (rs : List FileRecord) :
    column (insertAll {} rs) = .ofList (rs.map fun r => (r.path, part r)) := by
  induction rs using List.reverseRecOn with
  | nil => exact h.empty
  | append_singleton rs r ih =>
    rw [List.map_append, List.map_cons, List.map_nil, PathMap.ofList_append_singleton, ← ih,
      StructureReport.insertAll, List.foldl_append, List.foldl_cons, List.foldl_nil, h.insert]
    rfl

/-- Each map holds its part of the last record of every path. -/
theorem IsColumn.entries (h : IsColumn column part) (rs : List FileRecord) :
    InOrder (column (StructureReport.insertAll {} rs)).entries ∧
      (column (StructureReport.insertAll {} rs)).entries.Perm
        ((latest (·.path) rs).map fun r => (r.path, part r)) := by
  obtain ⟨horder, hperm⟩ := PathMap.entries_ofList (rs.map fun r => (r.path, part r))
  rw [h.insertAll rs]
  refine ⟨horder, ?_⟩
  rwa [latest, List.pwFilter_map] at hperm

theorem IsColumn.get? (h : IsColumn column part) {rs : List FileRecord} {r : FileRecord}
    (hr : r ∈ latest (·.path) rs) :
    (column (StructureReport.insertAll {} rs)).get? r.path = some (part r) := by
  obtain ⟨horder, hperm⟩ := h.entries rs
  exact PathMap.get?_of_mem horder (hperm.mem_iff.mpr (List.mem_map_of_mem hr))

/-- Records of distinct paths make one report, in whatever order they come. -/
theorem insertAll_perm {rs rs' : List FileRecord} (hperm : rs.Perm rs')
    (distinct : (rs.map (·.path)).Nodup) : insertAll {} rs = insertAll {} rs' := by
  have hcolumn : ∀ {α : Type} {column : StructureReport → PathMap α} {part : FileRecord → α},
      IsColumn column part → column (insertAll {} rs) = column (insertAll {} rs') := by
    intro α column part h
    rw [h.insertAll, h.insertAll]
    refine PathMap.ofList_perm (hperm.map _) ?_
    rwa [List.map_map]
  have hdependencies := hcolumn isColumn_dependencies
  have hcalls := hcolumn isColumn_functionCalls
  have hroutes := hcolumn isColumn_routes
  revert hdependencies hcalls hroutes
  cases insertAll {} rs
  cases insertAll {} rs'
  rintro rfl rfl rfl
  rfl

theorem fileCount_insertAll (rs : List FileRecord) :
    (insertAll {} rs).fileCount = (latest (·.path) rs).length := by
  rw [fileCount, PathMap.size, (isColumn_dependencies.entries rs).2.length_eq, List.length_map]

/-- The last record of a path is the one that is found. -/
theorem file?_insertAll {rs : List FileRecord} {r : FileRecord} (hr : r ∈ latest (·.path) rs) :
    (insertAll {} rs).file? r.path = some r := by
  rw [file?, isColumn_dependencies.get? hr, isColumn_functionCalls.get? hr,
    isColumn_routes.get? hr]
  rfl

/-- The number of entries in the lists of all three maps. -/
def recordCount (s : StructureReport) : Nat :=
  (s.dependencies.entries.map (·.2.length)).sum +
    (s.functionCalls.entries.map (·.2.length)).sum + (s.routes.entries.map (·.2.length)).sum

theorem IsColumn.sum_length {β : Type} {column : StructureReport → PathMap (List β)}
    {part : FileRecord → List β} (h : IsColumn column part) (rs : List FileRecord) :
    ((column (StructureReport.insertAll {} rs)).entries.map (·.2.length)).sum =
      ((latest (·.path) rs).map fun r => (part r).length).sum := by
  rw [((h.entries rs).2.map (·.2.length)).sum_nat, List.map_map]
  rfl

theorem recordCount_insertAll (rs : List FileRecord) :
    (insertAll {} rs).recordCount = ((latest (·.path) rs).map FileRecord.count).sum := by
  rw [recordCount, isColumn_dependencies.sum_length, isColumn_functionCalls.sum_length,
    isColumn_routes.sum_length]
  induction latest (·.path) rs with
  | nil => rfl
  | cons r rs ih =>
    simp only [List.map_cons, List.sum_cons, FileRecord.count] at ih ⊢
    omega

end StructureReport

end Triage
