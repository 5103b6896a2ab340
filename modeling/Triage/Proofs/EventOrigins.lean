import Mathlib.Data.List.Lex
import Mathlib.Order.Lattice
import Triage.Proofs.DecoratorShape
import Triage.Proofs.TreePaths

/-!
# Where events come from

An event is shown by a call, by an attribute with both its parts, or by a decorator of a decorated
function. The stream of a file is laid out by these origins: each shows its event once, they stand
in the pre-order of their nodes, and the decorators of one definition in the order of its children.
-/

namespace Triage

/-- The kind of event that some details belong to. -/
def EventDetails.kind : EventDetails → EventKind
  | .call _ _ => .functionCall
  | .decorator _ _ => .decorator
  | .attribute _ => .attributeAccess

namespace Python

/-- What shows an event, by the path of its node. A decorator goes by the path of the decorated
definition and its own number among the children. -/
inductive Origin where
  | call (path : List Nat)
  | access (path : List Nat)
  | decorator (path : List Nat) (number : Nat)
deriving DecidableEq, Repr

namespace Origin

/-- The path of the node that the walk is at when the event is told. -/
def path : Origin → List Nat
  | call p | access p | decorator p _ => p

def number : Origin → Nat
  | call _ | access _ => 0
  | decorator _ i => i

/-- An origin at an earlier node, or an earlier decorator of the same definition. -/
def Before (o o' : Origin) : Prop :=
  o.path < o'.path ∨ o.path = o'.path ∧ o.number < o'.number

theorem Before.ne {o o' : Origin} (h : o.Before o') : o ≠ o' := by
  rintro rfl
  rcases h with hpath | ⟨-, hnumber⟩
  · exact lt_irrefl _ hpath
  · exact lt_irrefl _ hnumber

theorem Before.path_le {o o' : Origin} (h : o.Before o') : o.path ≤ o'.path := by
  rcases h with hpath | ⟨hpath, -⟩
  · exact hpath.le
  · exact hpath.le

end Origin

namespace Tree

variable {source file : String} {t : Tree}

/-- What an origin shows in a file. -/
inductive Shows (source file : String) (t : Tree) : Origin → Event → Prop
  | call {p : List Nat} {n : Tree} (place : t.at? p = some n) (kind : n.kind = .call) :
      Shows source file t (.call p)
        (Event.functionCall file n.line (n.callLabel source) n.positionalArguments.length)
  | access {p : List Nat} {n object member : Tree} (place : t.at? p = some n)
      (kind : n.kind = .attribute) (left : n.childBy? .object = some object)
      (right : n.childBy? .attribute = some member) :
      Shows source file t (.access p)
        (Event.attributeAccess file (some n.line) (object.text source ++ "." ++ member.text source))
  | decorator {p : List Nat} {i : Nat} {n function name decorator call : Tree}
      (place : t.at? p = some n) (kind : n.kind = .decoratedDefinition)
      (definition : n.childBy? .definition = some function)
      (isFunction : function.kind = .functionDefinition)
      (named : function.childBy? .name = some name) (child : n.children[i]? = some decorator)
      (decorates : Decorates decorator call) :
      Shows source file t (.decorator p i)
        (Event.decorator file function.line (call.callLabel source) (name.text source))

/-- The function that a decorated definition defines, with the node of its name. -/
def decoratedFunction? (t : Tree) : Option (Tree × Tree) :=
  (t.childBy? .definition).bind fun function =>
    if function.kind = .functionDefinition then
      (function.childBy? .name).map fun name => (function, name)
    else none

/-- The events of a node, each behind its origin. -/
def sightingsAt (source file : String) (v : List Nat × Tree) : List (Origin × Event) :=
  match v.2.kind with
  | .call => [(.call v.1, v.2.callEvent source file)]
  | .attribute =>
    (v.2.attributeAccess? source).toList.map fun a =>
      (.access v.1, Event.attributeAccess file (some a.line) a.label)
  | .decoratedDefinition =>
    v.2.decoratedFunction?.toList.flatMap fun d =>
      v.2.children.zipIdx.filterMap fun c => c.1.decoratorCall?.map fun call =>
        (.decorator v.1 c.2,
          Event.decorator file d.1.line (call.callLabel source) (d.2.text source))
  | _ => []

/-- The events of a file, each behind its origin. -/
def sightings (source file : String) (t : Tree) : List (Origin × Event) :=
  t.places.flatMap (sightingsAt source file)

theorem decoratedFunction?_eq_some_iff {function name : Tree} :
    t.decoratedFunction? = some (function, name) ↔
      t.childBy? .definition = some function ∧ function.kind = .functionDefinition ∧
        function.childBy? .name = some name := by
  rw [decoratedFunction?, Option.bind_eq_some_iff]
  constructor
  · rintro ⟨d, hd, h⟩
    split at h
    · rename_i hkind
      obtain ⟨m, hm, heq⟩ := Option.map_eq_some_iff.mp h
      obtain ⟨rfl, rfl⟩ := Prod.mk.inj heq
      exact ⟨hd, hkind, hm⟩
    · cases h
  · rintro ⟨hd, hkind, hname⟩
    exact ⟨function, hd, by rw [if_pos hkind, hname]; rfl⟩

theorem decoratorEvents_eq (source file : String) (h : t.kind = .decoratedDefinition) :
    t.decoratorEvents source file =
      t.decoratedFunction?.toList.flatMap fun d => (t.children.filterMap decoratorCall?).map
        fun call => Event.decorator file d.1.line (call.callLabel source) (d.2.text source) := by
  obtain ⟨l, cs⟩ := t
  have hcalls : decoratorCalls (some (.node l cs)) = cs.filterMap decoratorCall? :=
    decoratorCalls_eq_filterMap cs h
  rw [decoratorEvents, decoratedFunction?, hcalls]
  cases childBy? .definition (.node l cs) with
  | none => rfl
  | some function =>
    by_cases hkind : function.kind = .functionDefinition
    · cases hname : function.childBy? .name <;> simp [hkind, hname, children]
    · simp [hkind]

/-- Without their origins, the sightings of a node are its events. -/
theorem map_sightingsAt (source file : String) (v : List Nat × Tree) :
    (sightingsAt source file v).map (·.2) = v.2.eventsAt source file := by
  rw [sightingsAt]
  split
  · rename_i hkind
    simp only [eventsAt, hkind]
    rfl
  · rename_i hkind
    simp only [eventsAt, hkind]
    cases v.2.attributeAccess? source <;> rfl
  · rename_i hkind
    simp only [eventsAt, hkind]
    rw [decoratorEvents_eq source file hkind, List.map_flatMap]
    congr 1
    funext d
    conv_rhs => rw [← List.zipIdx_map_fst 0 v.2.children]
    rw [List.filterMap_map, List.map_filterMap, List.map_filterMap]
    simp only [Option.map_map, Function.comp_def]
  · rename_i hcall hattribute hdecorated
    rw [eventsAt]
    split
    · exact absurd ‹_› hcall
    · exact absurd ‹_› hdecorated
    · exact absurd ‹_› hattribute
    · rfl

theorem map_sightings (source file : String) (t : Tree) :
    (t.sightings source file).map (·.2) = t.events source file := by
  rw [sightings, List.map_flatMap, events, nodes_eq_preorder, ← map_places, List.flatMap_map]
  exact List.flatMap_congr fun v _ => map_sightingsAt source file v

theorem mem_sightingsAt_iff {v : List Nat × Tree} {o : Origin} {e : Event}
    (hv : t.at? v.1 = some v.2) :
    (o, e) ∈ sightingsAt source file v ↔ Shows source file t o e ∧ o.path = v.1 := by
  obtain ⟨p, n⟩ := v
  rw [sightingsAt]
  constructor
  · intro h
    split at h
    · rename_i hkind
      obtain ⟨rfl, rfl⟩ := Prod.mk.inj (List.mem_singleton.mp h)
      exact ⟨.call hv hkind, rfl⟩
    · rename_i hkind
      obtain ⟨a, ha, heq⟩ := List.mem_map.mp h
      obtain ⟨rfl, rfl⟩ := Prod.mk.inj heq
      obtain ⟨object, hobject, ha⟩ := Option.bind_eq_some_iff.mp (Option.mem_toList.mp ha)
      obtain ⟨member, hmember, ha⟩ := Option.bind_eq_some_iff.mp ha
      obtain rfl := Option.some.inj ha
      exact ⟨.access hv hkind hobject hmember, rfl⟩
    · rename_i hkind
      obtain ⟨⟨function, name⟩, hd, h⟩ := List.mem_flatMap.mp h
      obtain ⟨hdefinition, hfunction, hname⟩ :=
        decoratedFunction?_eq_some_iff.mp (Option.mem_toList.mp hd)
      obtain ⟨⟨c, i⟩, hc, h⟩ := List.mem_filterMap.mp h
      obtain ⟨call, hcall, heq⟩ := Option.map_eq_some_iff.mp h
      obtain ⟨rfl, rfl⟩ := Prod.mk.inj heq
      exact ⟨.decorator hv hkind hdefinition hfunction hname (List.mem_zipIdx_iff_getElem?.mp hc)
        (decorates_iff.mpr hcall), rfl⟩
    · cases h
  · rintro ⟨h, hpath⟩
    cases h with
    | call place kind =>
      obtain rfl : _ = p := hpath
      obtain rfl := Option.some.inj (place.symm.trans hv)
      simp only [kind]
      exact List.mem_singleton.mpr rfl
    | access place kind left right =>
      obtain rfl : _ = p := hpath
      obtain rfl := Option.some.inj (place.symm.trans hv)
      simp [kind, attributeAccess?, left, right, Origin.path]
    | decorator place kind definition isFunction named child decorates =>
      obtain rfl : _ = p := hpath
      obtain rfl := Option.some.inj (place.symm.trans hv)
      simp only [kind, decoratedFunction?_eq_some_iff.mpr ⟨definition, isFunction, named⟩]
      refine List.mem_flatMap.mpr ⟨_, List.mem_singleton.mpr rfl, List.mem_filterMap.mpr
        ⟨(_, _), List.mem_zipIdx_iff_getElem?.mpr child, ?_⟩⟩
      rw [decorates_iff.mp decorates]
      rfl

theorem Shows.exists_place {o : Origin} {e : Event} (h : Shows source file t o e) :
    ∃ n, t.at? o.path = some n := by
  cases h with
  | call place => exact ⟨_, place⟩
  | access place => exact ⟨_, place⟩
  | decorator place => exact ⟨_, place⟩

/-- The sightings of a file are what its origins show. -/
theorem mem_sightings_iff {o : Origin} {e : Event} :
    (o, e) ∈ t.sightings source file ↔ Shows source file t o e := by
  rw [sightings, List.mem_flatMap]
  constructor
  · rintro ⟨v, hv, h⟩
    exact ((mem_sightingsAt_iff (mem_places_iff.mp hv)).mp h).1
  · intro h
    obtain ⟨n, hn⟩ := h.exists_place
    exact ⟨(o.path, n), mem_places_iff.mpr hn, (mem_sightingsAt_iff hn).mpr ⟨h, rfl⟩⟩

/-- The decorators of one definition stand in the order of its children. -/
theorem pairwise_sightingsAt (source file : String) (v : List Nat × Tree) :
    (sightingsAt source file v).Pairwise fun x y => x.1.Before y.1 := by
  rw [sightingsAt]
  split
  · exact List.pairwise_singleton _ _
  · cases v.2.attributeAccess? source with
    | none => exact .nil
    | some a => exact List.pairwise_singleton _ _
  · cases v.2.decoratedFunction? with
    | none => exact .nil
    | some d =>
      rw [Option.toList_some, List.flatMap_singleton, List.pairwise_filterMap]
      have hnumbers : v.2.children.zipIdx.Pairwise fun c d => c.2 < d.2 := by
        have hrange := List.pairwise_lt_range' (s := 0) (n := v.2.children.length)
        rw [← List.zipIdx_map_snd 0 v.2.children, List.pairwise_map] at hrange
        exact hrange
      refine hnumbers.imp fun hlt x hx y hy => ?_
      obtain ⟨_, -, rfl⟩ := Option.map_eq_some_iff.mp hx
      obtain ⟨_, -, rfl⟩ := Option.map_eq_some_iff.mp hy
      exact Or.inr ⟨rfl, hlt⟩
  · exact .nil

/-- The origins of a file stand in the order of the walk. -/
theorem pairwise_sightings (source file : String) (t : Tree) :
    (t.sightings source file).Pairwise fun x y => x.1.Before y.1 := by
  rw [sightings, List.pairwise_flatMap]
  refine ⟨fun v _ => pairwise_sightingsAt source file v, ?_⟩
  refine t.pairwise_places.imp_of_mem fun hv hw hlt x hx y hy => Or.inl ?_
  rwa [((mem_sightingsAt_iff (mem_places_iff.mp hv)).mp hx).2,
    ((mem_sightingsAt_iff (mem_places_iff.mp hw)).mp hy).2]

/-- A list in the order of its keys falls into what is below a key, at it and above it. -/
theorem exists_split_of_pairwise_le {α κ : Type} [LinearOrder κ] (key : α → κ) {as : List α}
    (h : as.Pairwise fun a b => key a ≤ key b) (k : κ) :
    ∃ before own after, as = before ++ (own ++ after) ∧ (∀ a ∈ before, key a < k) ∧
      (∀ a ∈ own, key a = k) ∧ ∀ a ∈ after, k < key a := by
  induction as with
  | nil =>
    exact ⟨[], [], [], rfl, List.forall_mem_nil _, List.forall_mem_nil _, List.forall_mem_nil _⟩
  | cons a as ih =>
    obtain ⟨hfirst, hrest⟩ := List.pairwise_cons.mp h
    obtain ⟨before, own, after, rfl, hbefore, hown, hafter⟩ := ih hrest
    rcases lt_trichotomy (key a) k with hlt | heq | hgt
    · exact ⟨a :: before, own, after, rfl, List.forall_mem_cons.mpr ⟨hlt, hbefore⟩, hown, hafter⟩
    · have hnil : before = [] := List.eq_nil_iff_forall_not_mem.mpr fun b hb =>
        absurd (hbefore b hb) (not_lt.mpr (heq ▸ hfirst b (List.mem_append_left _ hb)))
      exact ⟨[], a :: own, after, by rw [hnil]; rfl, List.forall_mem_nil _,
        List.forall_mem_cons.mpr ⟨heq, hown⟩, hafter⟩
    · exact ⟨[], [], _, rfl, List.forall_mem_nil _, List.forall_mem_nil _,
        List.forall_mem_cons.mpr ⟨hgt, fun b hb => hgt.trans_le (hfirst b hb)⟩⟩

theorem Shows.shape {o : Origin} {e : Event} (h : Shows source file t o e) :
    e.file = file ∧ (∃ line, e.line = some line ∧ 1 ≤ line) ∧ e.details.kind = e.kind := by
  cases h with
  | call => exact ⟨rfl, ⟨_, rfl, Nat.le_add_left 1 _⟩, rfl⟩
  | access => exact ⟨rfl, ⟨_, rfl, Nat.le_add_left 1 _⟩, rfl⟩
  | decorator => exact ⟨rfl, ⟨_, rfl, Nat.le_add_left 1 _⟩, rfl⟩

/-- The events of a file are what its calls, its attributes and the decorators of its functions
show, each once and nothing else, in the order of the walk. The events of one node stand together,
after all events of earlier nodes and before all events of later ones, which the nodes below it are
among. So the decorators of a definition come in one block, in their order, ahead of what is inside
the decorated definition. Every event carries the name of the file, a line, and details of its own
kind. -/
theorem events_by_origin (source file : String) (t : Tree) :
    ∃ shown : List (Origin × Event),
      t.events source file = shown.map (·.2) ∧
      (∀ o e, (o, e) ∈ shown ↔ Shows source file t o e) ∧
      (shown.map (·.1)).Nodup ∧
      shown.Pairwise (fun x y => x.1.Before y.1) ∧
      (∀ p : List Nat, ∃ before own after, shown = before ++ (own ++ after) ∧
        (∀ x ∈ before, x.1.path < p) ∧ (∀ x ∈ own, x.1.path = p) ∧ (∀ x ∈ after, p < x.1.path) ∧
        ∀ x ∈ shown, p <+: x.1.path → x.1.path ≠ p → x ∈ after) ∧
      ∀ e ∈ t.events source file,
        e.file = file ∧ (∃ line, e.line = some line ∧ 1 ≤ line) ∧ e.details.kind = e.kind := by
  have horder := pairwise_sightings source file t
  refine ⟨t.sightings source file, (map_sightings source file t).symm,
    fun o e => mem_sightings_iff, ?_, horder, ?_, ?_⟩
  · rw [List.Nodup, List.pairwise_map]
    exact horder.imp fun h => h.ne
  · intro p
    obtain ⟨before, own, after, hsplit, hbefore, hown, hafter⟩ :=
      exists_split_of_pairwise_le (fun x : Origin × Event => x.1.path)
        (horder.imp fun h => h.path_le) p
    refine ⟨before, own, after, hsplit, hbefore, hown, hafter, fun x hx hbelow hne => ?_⟩
    obtain ⟨q, hq⟩ := hbelow
    have hlater : p < x.1.path := by
      rw [← hq] at hne ⊢
      exact lt_append_of_ne_nil fun hnil => hne (by rw [hnil, List.append_nil])
    rw [hsplit, List.mem_append, List.mem_append] at hx
    rcases hx with hx | hx | hx
    · exact absurd hlater (hbefore x hx).asymm
    · exact absurd (hown x hx) hne
    · exact hx
  · intro e he
    rw [← map_sightings] at he
    obtain ⟨x, hx, rfl⟩ := List.mem_map.mp he
    exact (mem_sightings_iff.mp hx).shape

/-- The decorator that is a call has its event ahead of those of the call and its callee. -/
example : (stackedTree.sightings stackedText "app.py").map (·.1) =
    [.decorator [] 1, .call [1, 0], .access [1, 0, 0]] := by
  decide +kernel

end Tree

end Python

end Triage
