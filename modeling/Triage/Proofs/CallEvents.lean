import Triage.Proofs.Traversal

/-!
# Calls in the stream of events

Calls are named twice, once for the records and once for the events. Every call node has exactly
one Function Call event, and where the record has a name the event has the same one.
-/

namespace Triage.Python.Tree

/-- The nodes of calls, in the order of the walk. -/
def callNodes (t : Tree) : List Tree := t.nodes.filter (·.kind == .call)

/-- A call whose callee is a name or an attribute of a name. -/
def hasSimpleCallee (source : String) (call : Tree) : Bool :=
  (call.childBy? .function).any fun callee => (callee.simpleName? source).isSome

/-- The event of a call node. -/
def callEvent (source file : String) (call : Tree) : Event :=
  Event.functionCall file call.line (call.callLabel source) call.positionalArguments.length

/-- What is left of a file's Function Call events, one for each call node, when those of call nodes
without a simple callee are deleted. -/
def simpleCallEvents (source : String) (t : Tree) (events : List Event) : List Event :=
  (((events.filter (·.kind == .functionCall)).zip t.callNodes).filter
    (·.2.hasSimpleCallee source)).map (·.1)

theorem unparenthesized_of_ne {t : Tree} (h : t.kind ≠ .parenthesizedExpression) :
    t.unparenthesized = t := by
  obtain ⟨l, cs⟩ := t
  have hl : l.kind ≠ .parenthesizedExpression := h
  simp [unparenthesized, hl]

/-- The two ways of naming a callee agree where both give a name. -/
theorem calleeLabel_of_simpleName? {source name : String} {t : Tree}
    (h : t.simpleName? source = some name) : t.calleeLabel source = name := by
  rw [simpleName?] at h
  rw [calleeLabel]
  split
  · rename_i hk
    simp only [hk] at h
    exact Option.some.inj h
  · rename_i hk
    have hne : t.unparenthesized.kind ≠ .parenthesizedExpression := by rw [hk]; decide
    have hs : t.unparenthesized.simpleName? source = some name := by
      rw [simpleName?, unparenthesized_of_ne hne]
      exact h
    rw [hs]
  · rename_i hname hattr
    split at h
    · exact absurd ‹_› hname
    · exact absurd ‹_› hattr
    · cases h

theorem callRecord?_eq_none {source : String} {call : Tree}
    (h : call.hasSimpleCallee source = false) : call.callRecord? source = none := by
  cases hf : call.childBy? .function with
  | none => simp [callRecord?, hf]
  | some callee =>
    have hn : callee.simpleName? source = none := by simpa [hasSimpleCallee, hf] using h
    simp [callRecord?, hf, hn]

/-- A call with a simple callee has a record, and the record is what its event says. -/
theorem callRecord?_event {source : String} (file : String) {call : Tree}
    (h : call.hasSimpleCallee source = true) :
    (call.callRecord? source).map (fun r => Event.functionCall file r.line r.name r.args) =
      some (call.callEvent source file) := by
  cases hf : call.childBy? .function with
  | none => simp [hasSimpleCallee, hf] at h
  | some callee =>
    obtain ⟨name, hn⟩ : ∃ name, callee.simpleName? source = some name :=
      Option.isSome_iff_exists.mp (by simpa [hasSimpleCallee, hf] using h)
    have hl := calleeLabel_of_simpleName? hn
    simp [callRecord?, callEvent, callLabel, hf, hn, hl]

theorem kind_of_mem_decoratorEvents {source file : String} {t : Tree} {e : Event}
    (h : e ∈ t.decoratorEvents source file) : e.kind = .decorator ∧ e.file = file := by
  unfold decoratorEvents at h
  split at h
  · cases h
  · split at h
    · cases h
    · split at h
      · cases h
      · obtain ⟨call, _, rfl⟩ := List.mem_map.mp h
        exact ⟨rfl, rfl⟩

/-- A node has the event of a call exactly when it is one. -/
theorem filter_eventsAt (source file : String) (t : Tree) :
    (t.eventsAt source file).filter (·.kind == .functionCall) =
      if t.kind = .call then [t.callEvent source file] else [] := by
  unfold eventsAt
  split
  · rename_i hk
    simp [hk, callEvent, Event.functionCall]
  · rename_i hk
    rw [if_neg (by rw [hk]; decide), List.filter_eq_nil_iff]
    intro e he
    simp [(kind_of_mem_decoratorEvents he).1]
  · rename_i hk
    rw [if_neg (by rw [hk]; decide)]
    split <;> simp [Event.attributeAccess]
  · rename_i hcall _ _
    rw [if_neg hcall]
    rfl

theorem line_of_attributeAccess? {source : String} {t : Tree} {a : AttributeAccess}
    (h : t.attributeAccess? source = some a) : a.line = t.line := by
  unfold attributeAccess? at h
  cases ho : t.childBy? .object with
  | none => simp [ho] at h
  | some object =>
    cases hm : t.childBy? .attribute with
    | none => simp [ho, hm] at h
    | some member =>
      simp only [ho, hm, Option.bind_eq_bind, Option.bind_some] at h
      obtain rfl := Option.some.inj h
      rfl

theorem file_of_mem_eventsAt {source file : String} {t : Tree} {e : Event}
    (h : e ∈ t.eventsAt source file) : e.file = file := by
  unfold eventsAt at h
  split at h
  · rw [List.mem_singleton.mp h]
    rfl
  · exact (kind_of_mem_decoratorEvents h).2
  · split at h
    · rw [List.mem_singleton.mp h]
      rfl
    · cases h
  · cases h

/-- Every event of a file carries the file's name. -/
theorem file_of_mem_events {source file : String} {t : Tree} {e : Event}
    (h : e ∈ t.events source file) : e.file = file := by
  obtain ⟨n, _, hn⟩ := List.mem_flatMap.mp h
  exact file_of_mem_eventsAt hn

/-- The Function Call events of a file are those of its call nodes, in the same order. -/
theorem functionCalls_events (source file : String) (t : Tree) :
    (t.events source file).filter (·.kind == .functionCall) =
      t.callNodes.map (·.callEvent source file) := by
  unfold events callNodes
  induction t.nodes with
  | nil => rfl
  | cons n ns ih =>
    rw [List.flatMap_cons, List.filter_append, ih, filter_eventsAt]
    by_cases hk : n.kind = .call <;> simp [hk]

/-- The events left over are the records of calls, in the same order. -/
theorem simpleCallEvents_events (source file : String) (t : Tree) :
    t.simpleCallEvents source (t.events source file) =
      (t.calls source).map fun r => Event.functionCall file r.line r.name r.args := by
  have hcalls : t.calls source = t.callNodes.filterMap (·.callRecord? source) := rfl
  rw [simpleCallEvents, functionCalls_events, hcalls]
  induction t.callNodes with
  | nil => rfl
  | cons n ns ih =>
    cases hn : n.hasSimpleCallee source with
    | false => simpa [hn, callRecord?_eq_none hn] using ih
    | true =>
      obtain ⟨r, hr, he⟩ := Option.map_eq_some_iff.mp (callRecord?_event file hn)
      simpa [hn, hr, he] using ih

end Triage.Python.Tree
