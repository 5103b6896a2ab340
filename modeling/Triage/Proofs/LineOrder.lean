import Mathlib.Data.List.Pairwise
import Mathlib.Data.List.TakeWhile
import Triage.Proofs.DecoratorAgreement

/-!
# Lines in order

Nodes whose subtrees are laid out one after the other, as in a text, start on later and later lines
along the walk. A call, a route and most events carry the line of the node that shows them, so their
lines are in order. The event of a decorator carries the line of the function, and comes before the
decorator's own call: these events are in order among themselves, but not within the whole stream.
-/

namespace Triage.Python

/-- The number of line feeds among the characters that start before a byte offset. -/
def lineFeedsBefore : Nat → List Char → Nat
  | _, [] => 0
  | n, c :: cs =>
    if n = 0 then 0 else (if c = '\n' then 1 else 0) + lineFeedsBefore (n - c.utf8Size) cs

theorem lineFeedsBefore_mono {m n : Nat} (h : m ≤ n) (cs : List Char) :
    lineFeedsBefore m cs ≤ lineFeedsBefore n cs := by
  induction cs generalizing m n with
  | nil => exact Nat.le_refl 0
  | cons c cs ih =>
    rw [lineFeedsBefore, lineFeedsBefore]
    by_cases hm : m = 0
    · rw [if_pos hm]
      exact Nat.zero_le _
    · have hn : n ≠ 0 := by omega
      rw [if_neg hm, if_neg hn]
      exact Nat.add_le_add_left (ih (Nat.sub_le_sub_right h _)) _

theorem lineFeedsBefore_le_count (n : Nat) (cs : List Char) :
    lineFeedsBefore n cs ≤ cs.count '\n' := by
  induction cs generalizing n with
  | nil => exact Nat.le_refl 0
  | cons c cs ih =>
    rw [lineFeedsBefore, List.count_cons]
    have hrest := ih (n - c.utf8Size)
    by_cases hc : c = '\n'
    · simp only [hc, if_true, beq_self_eq_true] at hrest ⊢
      split <;> omega
    · simp only [hc, if_false, beq_iff_eq]
      split <;> omega

namespace Tree

variable {source file : String} {t : Tree}

/-- Nodes laid out as in a text: a node starts no later than its children, siblings start in order,
and the row of a node is the number of line feeds before its start. -/
structure InTextOrder (source : String) (t : Tree) : Prop where
  below : ∀ n ∈ t.nodes, ∀ c ∈ n.children, n.label.start ≤ c.label.start
  beside : ∀ n ∈ t.nodes, n.children.Pairwise fun c d => c.label.start ≤ d.label.start
  rows : ∀ n ∈ t.nodes, n.label.row = lineFeedsBefore n.label.start source.toList

/-- A node starts no earlier than all that is in the siblings before it, and not just no earlier
than these siblings. -/
def SubtreesInOrder (t : Tree) : Prop :=
  ∀ n ∈ t.nodes, n.children.Pairwise fun c d => ∀ m ∈ c.nodes, m.label.start ≤ d.label.start

/-- Decorated definitions have only decorators, extras and their definition as children, and no
decorator has a function in it. -/
structure PlainlyDecorated (t : Tree) : Prop where
  children : ∀ n ∈ t.nodes, n.kind = .decoratedDefinition → ∀ c ∈ n.children,
    c.kind = .decorator ∨ c.isExtra = true ∨ n.childBy? .definition = some c
  decorators : ∀ n ∈ t.nodes, n.kind = .decorator → n.containsFunction = false

/-- The extras of a decorated definition, which are comments and joined lines, have no function in
them. -/
def ExtrasWithoutFunctions (t : Tree) : Prop :=
  ∀ n ∈ t.nodes, n.kind = .decoratedDefinition →
    ∀ c ∈ n.children, c.isExtra = true → c.containsFunction = false

/-- Ranges of bytes as a parser leaves them: within the range of the parent, and one after the
other. -/
structure NestedRanges (t : Tree) : Prop where
  forward : ∀ n ∈ t.nodes, n.label.start ≤ n.label.stop
  inside : ∀ n ∈ t.nodes, ∀ c ∈ n.children,
    n.label.start ≤ c.label.start ∧ c.label.stop ≤ n.label.stop
  apart : ∀ n ∈ t.nodes, n.children.Pairwise fun c d => c.label.stop ≤ d.label.start

theorem mem_nodes_of_mem {l : Label} {cs : List Tree} {c : Tree} (hc : c ∈ cs) :
    c ∈ nodes (.node l cs) :=
  mem_nodes_of_child hc (self_mem_nodes c)

theorem InTextOrder.inner (h : InTextOrder source t) {n : Tree} (hn : n ∈ t.nodes) :
    InTextOrder source n := by
  have hnodes : ∀ m ∈ n.nodes, m ∈ t.nodes := fun m hm => mem_nodes_trans t hn hm
  exact ⟨fun m hm => h.below m (hnodes m hm), fun m hm => h.beside m (hnodes m hm),
    fun m hm => h.rows m (hnodes m hm)⟩

theorem SubtreesInOrder.inner (h : SubtreesInOrder t) {n : Tree} (hn : n ∈ t.nodes) :
    SubtreesInOrder n :=
  fun m hm => h m (mem_nodes_trans t hn hm)

/-- Before the definition of a plainly decorated function stand decorators and extras. -/
theorem PlainlyDecorated.frontsWithoutFunctions (h : PlainlyDecorated t)
    (hextras : t.ExtrasWithoutFunctions) : t.FrontsWithoutFunctions := by
  intro n hn hkind d _ _ c hc
  have hchild : c ∈ n.children := (List.takeWhile_sublist _).subset hc
  rcases h.children n hn hkind c hchild with hdecorator | hextra | hdefinition
  · exact h.decorators c (mem_nodes_trans t hn (mem_nodes_of_child hchild (self_mem_nodes c)))
      hdecorator
  · exact hextras n hn hkind c hchild hextra
  · have hfield : c.field = some .definition := by
      simpa using List.find?_some hdefinition
    have hnot := List.mem_takeWhile_imp hc
    simp [hfield] at hnot

theorem NestedRanges.inner (h : NestedRanges t) {n : Tree} (hn : n ∈ t.nodes) :
    NestedRanges n := by
  have hnodes : ∀ m ∈ n.nodes, m ∈ t.nodes := fun m hm => mem_nodes_trans t hn hm
  exact ⟨fun m hm => h.forward m (hnodes m hm), fun m hm => h.inside m (hnodes m hm),
    fun m hm => h.apart m (hnodes m hm)⟩

theorem NestedRanges.start_le_stop (h : NestedRanges t) {n : Tree} (hn : n ∈ t.nodes) :
    n.label.start ≤ t.label.stop := by
  induction t using Tree.induction with
  | node l cs ih =>
    rw [nodes_node] at hn
    rcases List.mem_cons.mp hn with rfl | hn
    · exact h.forward _ (self_mem_nodes _)
    · obtain ⟨c, hc, hn⟩ := List.mem_flatMap.mp hn
      exact Nat.le_trans (ih c hc (h.inner (mem_nodes_of_mem hc)) hn)
        (h.inside _ (self_mem_nodes _) c hc).2

theorem NestedRanges.subtreesInOrder (h : NestedRanges t) : t.SubtreesInOrder := by
  intro n hn
  refine (h.apart n hn).imp_of_mem fun hc _ hle m hm => ?_
  have hchild := mem_nodes_trans t hn (mem_nodes_of_child hc (self_mem_nodes _))
  exact Nat.le_trans ((h.inner hchild).start_le_stop hm) hle

/-- Nested ranges are laid out as in a text. -/
theorem NestedRanges.inTextOrder (h : NestedRanges t)
    (rows : ∀ n ∈ t.nodes, n.label.row = lineFeedsBefore n.label.start source.toList) :
    InTextOrder source t := by
  refine ⟨fun n hn c hc => (h.inside n hn c hc).1, fun n hn => ?_, rows⟩
  exact (h.subtreesInOrder n hn).imp fun hle => hle _ (self_mem_nodes _)

/-- A tree starts no later than any node in it. -/
theorem InTextOrder.start_le (h : InTextOrder source t) {n : Tree} (hn : n ∈ t.nodes) :
    t.label.start ≤ n.label.start := by
  induction t using Tree.induction with
  | node l cs ih =>
    rw [nodes_node] at hn
    rcases List.mem_cons.mp hn with rfl | hn
    · exact Nat.le_refl _
    · obtain ⟨c, hc, hn⟩ := List.mem_flatMap.mp hn
      exact Nat.le_trans (h.below _ (self_mem_nodes _) c hc)
        (ih c hc (h.inner (mem_nodes_of_mem hc)) hn)

theorem InTextOrder.line_le (h : InTextOrder source t) {m n : Tree} (hm : m ∈ t.nodes)
    (hn : n ∈ t.nodes) (hle : m.label.start ≤ n.label.start) : m.line ≤ n.line := by
  rw [line, line, h.rows m hm, h.rows n hn]
  exact Nat.add_le_add_right (lineFeedsBefore_mono hle _) 1

theorem InTextOrder.line_le_count (h : InTextOrder source t) {n : Tree} (hn : n ∈ t.nodes) :
    n.line ≤ 1 + source.toList.count '\n' := by
  rw [line, h.rows n hn, Nat.add_comm]
  exact Nat.add_le_add_left (lineFeedsBefore_le_count _ _) 1

/-- Everything in a child starts on no later line than everything in the next children. -/
theorem InTextOrder.pairwise_line {l : Label} {cs : List Tree}
    (h : InTextOrder source (.node l cs)) (horder : SubtreesInOrder (.node l cs)) :
    cs.Pairwise fun c d => ∀ m ∈ c.nodes, ∀ n ∈ d.nodes, m.line ≤ n.line := by
  refine (horder _ (self_mem_nodes _)).imp_of_mem fun hc hd hle m hm n hn => ?_
  exact h.line_le (mem_nodes_of_child hc hm) (mem_nodes_of_child hd hn)
    (Nat.le_trans (hle m hm) ((h.inner (mem_nodes_of_mem hd)).start_le hn))

/-- The nodes of a walk start on lines in order. -/
theorem InTextOrder.pairwise_nodes (h : InTextOrder source t) (horder : t.SubtreesInOrder) :
    t.nodes.Pairwise fun m n => m.line ≤ n.line := by
  induction t using Tree.induction with
  | node l cs ih =>
    rw [nodes_node, List.pairwise_cons]
    constructor
    · intro n hn
      have hmem : n ∈ nodes (.node l cs) := by
        rw [nodes_node]
        exact List.mem_cons_of_mem _ hn
      exact h.line_le (self_mem_nodes _) hmem (h.start_le hmem)
    · rw [List.pairwise_flatMap]
      exact ⟨fun c hc =>
          ih c hc (h.inner (mem_nodes_of_mem hc)) (horder.inner (mem_nodes_of_mem hc)),
        h.pairwise_line horder⟩

theorem line_of_callRecord? {n : Tree} {r : CallRecord} (h : n.callRecord? source = some r) :
    r.line = n.line := by
  obtain ⟨_, _, h⟩ := Option.bind_eq_some_iff.mp h
  obtain ⟨_, _, h⟩ := Option.bind_eq_some_iff.mp h
  obtain rfl := Option.some.inj h
  rfl

theorem line_of_mem_routesAt {rule : RouteRule} {c : Cursor} {r : RouteRecord}
    (h : r ∈ routesAt source rule c) : r.line = c.node.line := by
  unfold routesAt at h
  split at h
  · cases h
  · obtain ⟨_, _, h⟩ := List.mem_filterMap.mp h
    obtain ⟨_, _, rfl⟩ := Option.map_eq_some_iff.mp h
    rfl

theorem line_of_mem_eventsAt {n : Tree} {e : Event} (h : e ∈ n.eventsAt source file)
    (hkind : e.kind ≠ .decorator) : e.line = some n.line := by
  unfold eventsAt at h
  split at h
  · rw [List.mem_singleton.mp h]
    rfl
  · exact absurd (kind_of_mem_decoratorEvents h).1 hkind
  · split at h
    · rename_i a ha
      rw [List.mem_singleton.mp h, ← line_of_attributeAccess? ha]
      rfl
    · cases h
  · cases h

/-- The event of a decorator carries the line of the definition, which is a function. -/
theorem line_of_mem_decoratorEvents {n : Tree} {e : Event} (h : e ∈ n.decoratorEvents source file) :
    ∃ d, n.childBy? .definition = some d ∧ d.kind = .functionDefinition ∧
      e.line = some d.line := by
  unfold decoratorEvents at h
  split at h
  · cases h
  · rename_i d hd
    split at h
    · cases h
    · rename_i hfunction
      split at h
      · cases h
      · obtain ⟨_, _, rfl⟩ := List.mem_map.mp h
        exact ⟨d, hd, not_ne_iff.mp hfunction, rfl⟩

/-- Every event carries the line of a node. -/
theorem exists_line_of_mem_events {e : Event} (h : e ∈ t.events source file) :
    ∃ n ∈ t.nodes, e.line = some n.line := by
  obtain ⟨n, hn, he⟩ := List.mem_flatMap.mp h
  by_cases hkind : e.kind = .decorator
  · obtain ⟨d, hd, -, hline⟩ :=
      line_of_mem_decoratorEvents (mem_decoratorEvents_of_kind he hkind).2
    exact ⟨d, mem_nodes_trans t hn (child_mem_nodes hd), hline⟩
  · exact ⟨n, hn, line_of_mem_eventsAt he hkind⟩

/-- The lines of the Decorator events of a file. -/
def decoratorLines (source file : String) (t : Tree) : List Nat :=
  ((t.events source file).filter (·.kind == .decorator)).filterMap (·.line)

/-- The lines of the other events of a file. -/
def ownLines (source file : String) (t : Tree) : List Nat :=
  ((t.events source file).filter (·.kind != .decorator)).filterMap (·.line)

theorem exists_line_of_mem_decoratorLines {k : Nat} (h : k ∈ t.decoratorLines source file) :
    ∃ n ∈ t.nodes, k = n.line := by
  obtain ⟨e, he, hk⟩ := List.mem_filterMap.mp h
  obtain ⟨n, hn, hline⟩ := exists_line_of_mem_events (List.mem_filter.mp he).1
  exact ⟨n, hn, Option.some.inj (hk.symm.trans hline)⟩

theorem decoratorLines_eq_nil (h : t.containsFunction = false) :
    t.decoratorLines source file = [] := by
  have hnone : (t.events source file).filter (·.kind == .decorator) = [] :=
    List.filter_eq_nil_iff.mpr fun e he => by
      simpa using no_decorator_of_no_function source file h e he
  rw [decoratorLines, hnone]
  rfl

theorem decoratorLines_node (source file : String) (l : Label) (cs : List Tree) :
    decoratorLines source file (.node l cs) =
      ((eventsAt source file (.node l cs)).filter (·.kind == .decorator)).filterMap (·.line) ++
        cs.flatMap (decoratorLines source file) := by
  rw [decoratorLines, events_node, List.filter_append, List.filterMap_append, List.filter_flatMap,
    List.filterMap_flatMap]
  rfl

/-- A node with Decorator events is a decorated function, and they carry its line. -/
theorem decorated_of_mem_lines {n : Tree} {k : Nat}
    (h : k ∈ ((n.eventsAt source file).filter (·.kind == .decorator)).filterMap (·.line)) :
    n.kind = .decoratedDefinition ∧ ∃ d, n.childBy? .definition = some d ∧
      d.kind = .functionDefinition ∧ k = d.line := by
  obtain ⟨e, he, hk⟩ := List.mem_filterMap.mp h
  obtain ⟨he, hkind⟩ := List.mem_filter.mp he
  obtain ⟨hdecorated, he⟩ := mem_decoratorEvents_of_kind he (by simpa using hkind)
  obtain ⟨d, hd, hfunction, hline⟩ := line_of_mem_decoratorEvents he
  exact ⟨hdecorated, d, hd, hfunction, Option.some.inj (hk.symm.trans hline)⟩

/-- The Decorator events of a file are in the order of their lines: the function of a decorated
definition comes before all functions that are decorated in it. -/
theorem pairwise_decoratorLines (h : InTextOrder source t) (horder : t.SubtreesInOrder)
    (hfronts : t.FrontsWithoutFunctions) : (t.decoratorLines source file).Pairwise (· ≤ ·) := by
  induction t using Tree.induction with
  | node l cs ih =>
    rw [decoratorLines_node, List.pairwise_append]
    have hrow := h.pairwise_line horder
    refine ⟨?_, ?_, ?_⟩
    · refine List.pairwise_of_forall_mem_list fun k hk k' hk' => ?_
      obtain ⟨-, d, hd, -, rfl⟩ := decorated_of_mem_lines hk
      obtain ⟨-, d', hd', -, rfl⟩ := decorated_of_mem_lines hk'
      exact Nat.le_of_eq (by rw [Option.some.inj (hd.symm.trans hd')])
    · rw [List.pairwise_flatMap]
      refine ⟨fun c hc => ih c hc (h.inner (mem_nodes_of_mem hc))
        (horder.inner (mem_nodes_of_mem hc)) (hfronts.child hc), ?_⟩
      refine hrow.imp fun hle k hk k' hk' => ?_
      obtain ⟨m, hm, rfl⟩ := exists_line_of_mem_decoratorLines hk
      obtain ⟨n, hn, rfl⟩ := exists_line_of_mem_decoratorLines hk'
      exact hle m hm n hn
    · intro k hk k' hk'
      obtain ⟨hl, d, hd, hfunction, rfl⟩ := decorated_of_mem_lines hk
      obtain ⟨c, hc, hline⟩ := List.mem_flatMap.mp hk'
      obtain ⟨before, after, rfl, hbefore⟩ := hfronts.parts hl hd hfunction
      -- The child has no function in it, is the decorated function, or comes after it.
      rcases List.mem_append.mp hc with hfront | hrest
      · rw [decoratorLines_eq_nil (hbefore c hfront)] at hline
        cases hline
      · obtain ⟨n, hn, rfl⟩ := exists_line_of_mem_decoratorLines hline
        rcases List.mem_cons.mp hrest with rfl | hafter
        · have hin := h.inner (mem_nodes_of_mem hc)
          exact hin.line_le (self_mem_nodes _) hn (hin.start_le hn)
        · have hlater := (List.pairwise_append.mp hrow).2.1
          exact List.rel_of_pairwise_cons hlater hafter d (self_mem_nodes d) n hn

/-- What is taken from each member, with the member's key, is in the order of the members. -/
theorem pairwise_flatMap_of_key {α β : Type} (value : β → Nat) {key : α → Nat} {f : α → List β}
    {as : List α} (h : as.Pairwise fun a b => key a ≤ key b)
    (hf : ∀ a, ∀ b ∈ f a, value b = key a) :
    (as.flatMap f).Pairwise fun b b' => value b ≤ value b' := by
  rw [List.pairwise_flatMap]
  constructor
  · refine fun a _ => List.pairwise_of_forall_mem_list fun b hb b' hb' => ?_
    exact Nat.le_of_eq ((hf a b hb).trans (hf a b' hb').symm)
  · refine h.imp fun hle b hb b' hb' => ?_
    rwa [hf _ b hb, hf _ b' hb']

theorem pairwise_calls (h : InTextOrder source t) (horder : t.SubtreesInOrder) :
    ((t.calls source).map (·.line)).Pairwise (· ≤ ·) := by
  rw [List.pairwise_map, calls, List.filterMap_eq_flatMap_toList]
  exact pairwise_flatMap_of_key _ ((h.pairwise_nodes horder).filter _) fun n r hr =>
    line_of_callRecord? (Option.mem_toList.mp hr)

theorem pairwise_routes (rule : RouteRule) (h : InTextOrder source t)
    (horder : t.SubtreesInOrder) : ((t.routes source rule).map (·.line)).Pairwise (· ≤ ·) := by
  have hwalk : (t.walk.map (·.node)).Pairwise fun m n => m.line ≤ n.line :=
    h.pairwise_nodes horder
  rw [List.pairwise_map] at hwalk
  rw [List.pairwise_map, routes]
  exact pairwise_flatMap_of_key _ (hwalk.filter _) fun c r hr => line_of_mem_routesAt hr

theorem pairwise_ownLines (h : InTextOrder source t) (horder : t.SubtreesInOrder) :
    (t.ownLines source file).Pairwise (· ≤ ·) := by
  rw [ownLines, events, List.filter_flatMap, List.filterMap_flatMap]
  refine pairwise_flatMap_of_key id (h.pairwise_nodes horder) fun n k hk => ?_
  obtain ⟨e, he, hk⟩ := List.mem_filterMap.mp hk
  obtain ⟨he, hkind⟩ := List.mem_filter.mp he
  exact Option.some.inj (hk.symm.trans (line_of_mem_eventsAt he (by simpa using hkind)))

/-- The lines of all records of a file lie within the source. Where subtrees are in order too, the
calls and the routes come out in the order of their lines, and so do the Function Call and Attribute
Access events as they stand in the stream. The Decorator events by themselves do so where in
addition no extra of a decorated definition has a function in it. -/
theorem records_in_line_order (source file : String) (rule : RouteRule) (t : Tree)
    (hlayout : InTextOrder source t) (hplain : PlainlyDecorated t) :
    (t.SubtreesInOrder →
        ((t.calls source).map (·.line)).Pairwise (· ≤ ·) ∧
        ((t.routes source rule).map (·.line)).Pairwise (· ≤ ·) ∧
        (((t.events source file).filter (·.kind != .decorator)).filterMap (·.line)).Pairwise
          (· ≤ ·) ∧
        (t.ExtrasWithoutFunctions →
          (((t.events source file).filter (·.kind == .decorator)).filterMap (·.line)).Pairwise
            (· ≤ ·))) ∧
      (∀ r ∈ t.calls source, 1 ≤ r.line ∧ r.line ≤ 1 + source.toList.count '\n') ∧
      (∀ r ∈ t.routes source rule, 1 ≤ r.line ∧ r.line ≤ 1 + source.toList.count '\n') ∧
      ∀ e ∈ t.events source file,
        ∃ line, e.line = some line ∧ 1 ≤ line ∧ line ≤ 1 + source.toList.count '\n' := by
  refine ⟨fun horder => ⟨pairwise_calls hlayout horder, pairwise_routes rule hlayout horder,
    pairwise_ownLines hlayout horder, fun hextras =>
      pairwise_decoratorLines hlayout horder (hplain.frontsWithoutFunctions hextras)⟩, ?_, ?_, ?_⟩
  · intro r hr
    obtain ⟨n, hn, hr⟩ := List.mem_filterMap.mp hr
    rw [line_of_callRecord? hr]
    exact ⟨Nat.le_add_left 1 _, hlayout.line_le_count (List.mem_filter.mp hn).1⟩
  · intro r hr
    obtain ⟨c, hc, hr⟩ := List.mem_flatMap.mp hr
    have hnode : c.node ∈ t.nodes := List.mem_map_of_mem (List.mem_filter.mp hc).1
    rw [line_of_mem_routesAt hr]
    exact ⟨Nat.le_add_left 1 _, hlayout.line_le_count hnode⟩
  · intro e he
    obtain ⟨n, hn, hline⟩ := exists_line_of_mem_events he
    exact ⟨n.line, hline, Nat.le_add_left 1 _, hlayout.line_le_count hn⟩

/-- A call on the first line, and one on the second. -/
def twistedText : String := " x()\ny()\n"

/-- The second call is in a block that starts before the first call. -/
def twistedTree : Tree :=
  .node { kind := .root, start := 0, stop := 9 }
    [.node { kind := .block, start := 0, stop := 8 }
      [.node { kind := .call, start := 5, stop := 8, row := 1 }
        [.node { kind := .identifier, field := some .function, start := 5, stop := 6, row := 1 } [],
        .node { kind := .argumentList, field := some .arguments, start := 6, stop := 8, row := 1 }
          []]],
    .node { kind := .call, start := 1, stop := 4 }
      [.node { kind := .identifier, field := some .function, start := 1, stop := 2 } [],
      .node { kind := .argumentList, field := some .arguments, start := 2, stop := 4 } []]]

theorem inTextOrder_twistedTree : InTextOrder twistedText twistedTree :=
  ⟨by decide +kernel, by decide +kernel, by decide +kernel⟩

theorem plainlyDecorated_twistedTree : PlainlyDecorated twistedTree := by
  have hnone : ∀ n ∈ twistedTree.nodes, n.kind ≠ .decoratedDefinition := by decide +kernel
  exact ⟨fun n hn hkind => absurd hkind (hnone n hn), by decide +kernel⟩

theorem inTextOrder_frontTree : InTextOrder frontText (frontTree .comment) :=
  ⟨by decide +kernel, by decide +kernel, by decide +kernel⟩

theorem plainlyDecorated_frontTree : PlainlyDecorated (frontTree .comment) := by
  refine ⟨fun n hn hkind c hc => ?_, by decide +kernel⟩
  rcases cases_frontTree (by decide) hn hkind with rfl | rfl
  · simp only [frontTree, Tree.children, List.mem_cons, List.not_mem_nil, or_false] at hc
    rcases hc with rfl | rfl | rfl
    · exact Or.inr (Or.inl rfl)
    · exact Or.inl rfl
    · exact Or.inr (Or.inr rfl)
  · simp only [decoratedPass, Tree.children, List.mem_cons, List.not_mem_nil, or_false] at hc
    rcases hc with rfl | rfl
    · exact Or.inl rfl
    · exact Or.inr (Or.inr rfl)

/-- Siblings in order are not enough: the calls of the twisted tree are on the lines 2 and 1. Nor
are subtrees in order when a comment holds a decorated function: the events of the decorators are on
the lines 4 and 2. -/
theorem not_in_line_order_twistedTree :
    (InTextOrder twistedText twistedTree ∧ PlainlyDecorated twistedTree ∧
      ¬ ((twistedTree.calls twistedText).map (·.line)).Pairwise (· ≤ ·)) ∧
    InTextOrder frontText (frontTree .comment) ∧ PlainlyDecorated (frontTree .comment) ∧
      (frontTree .comment).SubtreesInOrder ∧
      ¬ ((((frontTree .comment).events frontText "app.py").filter
        (·.kind == .decorator)).filterMap (·.line)).Pairwise (· ≤ ·) := by
  have hcalls : (twistedTree.calls twistedText).map (·.line) = [2, 1] := by decide +kernel
  have hdecorators : (((frontTree .comment).events frontText "app.py").filter
      (·.kind == .decorator)).filterMap (·.line) = [4, 2] := by decide +kernel
  have horder : (frontTree .comment).SubtreesInOrder := by
    unfold SubtreesInOrder
    decide +kernel
  rw [hcalls, hdecorators]
  exact ⟨⟨inTextOrder_twistedTree, plainlyDecorated_twistedTree, by decide⟩,
    inTextOrder_frontTree, plainlyDecorated_frontTree, horder, by decide⟩

theorem nestedRanges_stackedTree : NestedRanges stackedTree :=
  ⟨by decide +kernel, by decide +kernel, by decide +kernel⟩

theorem plainlyDecorated_stackedTree : PlainlyDecorated stackedTree := by
  refine ⟨fun n hn hkind c hc => ?_, by decide +kernel⟩
  obtain rfl := eq_stackedTree_of_decorated hn hkind
  simp only [stackedTree, Tree.children, List.mem_cons, List.not_mem_nil, or_false] at hc
  rcases hc with rfl | rfl | rfl
  · exact Or.inl rfl
  · exact Or.inl rfl
  · exact Or.inr (Or.inr rfl)

/-- Under the stacked decorators the function is named first, with the last line. The call and the
attribute follow with the line before. -/
theorem records_in_line_order_stackedTree :
    InTextOrder stackedText stackedTree ∧ PlainlyDecorated stackedTree ∧
      stackedTree.SubtreesInOrder ∧ stackedTree.ExtrasWithoutFunctions ∧
      (stackedTree.events stackedText "app.py").filterMap (·.line) = [3, 2, 2] ∧
      (((stackedTree.events stackedText "app.py").filter (·.kind != .decorator)).filterMap
        (·.line)).Pairwise (· ≤ ·) ∧
      (((stackedTree.events stackedText "app.py").filter (·.kind == .decorator)).filterMap
        (·.line)).Pairwise (· ≤ ·) ∧
      ∀ r ∈ stackedTree.routes stackedText .fastapi, 1 ≤ r.line ∧ r.line ≤ 4 := by
  have hlayout : InTextOrder stackedText stackedTree :=
    nestedRanges_stackedTree.inTextOrder (by decide +kernel)
  have horder := nestedRanges_stackedTree.subtreesInOrder
  have hextras : stackedTree.ExtrasWithoutFunctions := by
    intro n hn hkind
    obtain rfl := eq_stackedTree_of_decorated hn hkind
    decide +kernel
  obtain ⟨hlines, -, hroutes, -⟩ := records_in_line_order stackedText "app.py" .fastapi
    stackedTree hlayout plainlyDecorated_stackedTree
  obtain ⟨-, -, hown, hdecorators⟩ := hlines horder
  exact ⟨hlayout, plainlyDecorated_stackedTree, horder, hextras, by decide +kernel, hown,
    hdecorators hextras, hroutes⟩

end Tree

end Triage.Python
