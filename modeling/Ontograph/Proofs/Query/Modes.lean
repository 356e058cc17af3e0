import Ontograph.Proofs.Query.Tree

/-!
# The two modes

Both modes visit an expression alike and differ only in what they do with the classes of a scope: direct
mode labels the node, and inference mode binds it.  So a draft of inference mode is the image of one of
direct mode under a map that turns labelled nodes into bindings and keeps everything else
(`Draft.inferred`).  Names of sets, which only inference mode gives out, never move the number of the
next node.

Every step commutes with the map, so the whole walk does (`ClassExpression.alike`), and so do
failures.

Main statement: `Compiler.inference_pattern_is_image`.
-/

namespace Ontograph

/-! ## The image of a pattern -/

/-- Whether a part is an edge. -/
def Part.isLink (part : Part) : Bool :=
  part.link?.isSome

/-- What inference mode has for a part of direct mode: a labelled node becomes the binding of its
variable, by the members of its class if it has one label, and else by the common members of all
classes, in order. -/
def Part.binding? (target : String) : Part → Option Binding
  | node _ [] => none
  | node var [cls] => some (.members cls var)
  | node var labels =>
      some (.common (labels.mapIdx fun i cls => ⟨cls, Draft.setName target var i⟩) var)
  | edge _ _ _ => none
  | valueEdge _ _ _ _ => none

/-- The pattern of inference mode that goes with one of direct mode: its labelled nodes are bindings, and
its edges are the parts, or the node to return if there is none. -/
def Pattern.inferred (q : Pattern) : Pattern :=
  { q with
    bindings := q.parts.filterMap (Part.binding? q.target)
    parts :=
      if (q.parts.filter Part.isLink).isEmpty then [.node q.target []]
      else q.parts.filter Part.isLink }

namespace Draft

/-- The draft of inference mode that goes with one of direct mode. -/
def inferred (d : Draft) : Draft :=
  { d with
    bindings := d.parts.filterMap (Part.binding? d.target)
    parts := d.parts.filter Part.isLink }

/-! ## Steps commute with the image -/

theorem inferred_addCondition (d : Draft) (condition : Condition) :
    (d.addCondition condition).inferred = d.inferred.addCondition condition := rfl

theorem inferred_leave (d : Draft) : d.leave.inferred = d.inferred.leave := rfl

theorem inferred_addNothing (d : Draft) (e : ClassExpression) :
    (d.addNothing e).inferred = d.inferred.addNothing e := by
  have refuted : d.refute.inferred = d.inferred.refute := by
    unfold refute
    show _ = if .unsatisfiable ∈ d.conditions then _ else _
    split <;> rfl
  cases e with
  | nothing => rfl
  | intersection operands =>
      simp only [addNothing]
      split
      · exact refuted
      · rfl
  | _ => rfl

/-- An edge stays what it is. -/
theorem inferred_addLink (d : Draft) (part : Part) (link : part.isLink = true) :
    (d.addPart part).inferred = d.inferred.addPart part := by
  have unbound : part.binding? d.target = none := by
    cases part with
    | node => cases link
    | edge | valueEdge => rfl
  simp [inferred, addPart, List.filterMap_append, List.filter_append, unbound, link]

theorem inferred_enterEdge (d : Draft) (node : String) (property : Uri) (depth : Nat) :
    (d.enterEdge node property depth).inferred = d.inferred.enterEdge node property depth := by
  have linked := d.fresh.2.inferred_addLink (.edge node property d.fresh.1) rfl
  exact congrArg (Draft.enter · (depth + 1)) linked

theorem inferred_addValueEdge (d : Draft) (node : String) (property individual : Uri) :
    (d.addValueEdge node property individual).inferred =
      d.inferred.addValueEdge node property individual :=
  d.fresh.2.inferred_addLink (.valueEdge node property d.fresh.1 individual) rfl

/-- A labelled node becomes a binding. -/
theorem inferred_addNode (d : Draft) (node : String) {labels : List Uri} {binding : Binding}
    (bound : (Part.node node labels).binding? d.target = some binding) :
    (d.addPart (.node node labels)).inferred = d.inferred.addBinding binding := by
  simp [inferred, addPart, addBinding, List.filterMap_append, List.filter_append, bound,
    Part.isLink, Part.link?]

/-- Where direct mode labels a node, inference mode binds it. -/
theorem addClasses_inferred (d : Draft) (node : String) (classes : List Uri) :
    d.inferred.addClasses .inference node classes =
      inferred <$> d.addClasses .direct node classes := by
  unfold addClasses
  rw [map_bind]
  refine bind_congr fun _ => ?_
  match classes with
  | [] => rfl
  | [cls] => exact congrArg Except.ok (d.inferred_addNode node rfl).symm
  | first :: second :: rest => exact congrArg Except.ok (d.inferred_addNode node rfl).symm

theorem addClassesOf_inferred (d : Draft) (node : String) (e : ClassExpression) :
    d.inferred.addClassesOf .inference node e =
      inferred <$> d.addClassesOf .direct node e := by
  unfold addClassesOf
  rw [← inferred_addNothing, addClasses_inferred]

/-- A finished draft goes with the finished image: the node that stands for no part at all is neither an
edge nor labelled. -/
theorem finish_inferred (d : Draft) : d.inferred.finish = d.finish.inferred := by
  have links : d.finish.parts.filter Part.isLink = d.parts.filter Part.isLink := by
    cases none : d.parts <;> simp [finish, none, Part.isLink, Part.link?]
  have bindings : d.finish.parts.filterMap (Part.binding? d.target) =
      d.parts.filterMap (Part.binding? d.target) := by
    cases none : d.parts <;> simp [finish, none, Part.binding?]
  show _ = { d.finish with
    bindings := d.finish.parts.filterMap (Part.binding? d.target)
    parts := if (d.finish.parts.filter Part.isLink).isEmpty then [.node d.target []]
      else d.finish.parts.filter Part.isLink }
  rw [links, bindings]
  rfl

end Draft

/-! ## Walks commute with the image -/

namespace ClassExpression

/-- The restrictions of an expression are added alike in both modes. -/
def Alike (e : ClassExpression) : Prop :=
  ∀ node depth d, addAll .inference node depth e.restrictions d.inferred =
    Draft.inferred <$> addAll .direct node depth e.restrictions d

/-- If its restrictions are added alike, the whole expression is. -/
theorem Alike.addTo_inferred {e : ClassExpression} (alike : e.Alike) (node : String) (depth : Nat)
    (d : Draft) :
    e.addTo .inference node depth d.inferred = Draft.inferred <$> e.addTo .direct node depth d := by
  rw [addTo_eq, addTo_eq, Draft.addClassesOf_inferred, bind_map_left, map_bind]
  exact bind_congr fun d => alike node depth d

/-- The restrictions of every expression are added alike. -/
theorem alike (e : ClassExpression) : e.Alike := by
  induction e using induction with
  | thing | nothing | named => exact fun _ _ _ => rfl
  | intersection operands ih =>
      unfold Alike
      rw [restrictions]
      induction operands with
      | nil => exact fun _ _ _ => rfl
      | cons a rest step =>
          intro node depth d
          obtain ⟨first, others⟩ := List.forall_mem_cons.1 ih
          rw [restrictionsList, addAll_append, addAll_append, first, bind_map_left, map_bind]
          exact bind_congr fun d => step others node depth d
  | objectSome property filler ih =>
      intro node depth d
      rw [restrictions, addAll_singleton, addAll_singleton, addTo_objectSome, addTo_objectSome,
        map_bind]
      refine bind_congr fun _ => ?_
      show filler.addTo _ d.fresh.1 _ _ >>= _ = _
      rw [← Draft.inferred_enterEdge, ih.addTo_inferred, bind_map_left, map_bind]
      exact bind_congr fun d => congrArg Except.ok d.inferred_leave.symm
  | objectHas property individual =>
      intro node depth d
      simp only [restrictions, addAll_singleton, addTo, map_bind]
      exact bind_congr fun _ =>
        congrArg Except.ok (d.inferred_addValueEdge node property individual).symm
  | dataSome property =>
      intro node depth d
      simp only [restrictions, addAll_singleton, addTo, map_bind]
      exact bind_congr fun _ =>
        congrArg Except.ok (d.inferred_addCondition (.hasAttribute node property)).symm
  | dataHas property value =>
      intro node depth d
      simp only [restrictions, addAll_singleton, addTo, map_bind]
      exact bind_congr fun _ => bind_congr fun _ =>
        congrArg Except.ok (d.inferred_addCondition (.attributeEquals node property value)).symm
  | union | complement | objectAll | objectCardinality | dataAll => exact fun _ _ _ => rfl

end ClassExpression

namespace Compiler

/-- The pattern of an expression in inference mode is the image of its pattern in direct mode, and there
is none if there is none in direct mode, for the same reason.  So both have the same target, nodes,
conditions and tally; the edges are the same, or the node to return stands alone; and there is one binding
for each labelled node, in order, of the same variable to the same classes. -/
theorem inference_pattern_is_image (schema : Schema) (procedure : String) (e : ClassExpression)
    (target : Option String) :
    (⟨schema, .inference, procedure⟩ : Compiler).pattern e target =
      Pattern.inferred <$> (⟨schema, .direct, procedure⟩ : Compiler).pattern e target := by
  show e.toPattern .inference target = Pattern.inferred <$> e.toPattern .direct target
  rw [ClassExpression.toPattern_eq, ClassExpression.toPattern_eq]
  split
  · rfl
  · split
    · rfl
    · let before := (Draft.start (target.getD "n0")).enter 1
      have image : before.inferred = before := rfl
      have walked := e.normalized.alike.addTo_inferred (target.getD "n0") 1 before
      rw [image] at walked
      rw [walked, bind_map_left, map_bind]
      exact bind_congr fun d => congrArg Except.ok d.leave.finish_inferred

end Compiler

end Ontograph
