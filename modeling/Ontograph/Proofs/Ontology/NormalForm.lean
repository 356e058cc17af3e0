import Ontograph.Proofs.Ontology.Spellings

/-!
# Normal forms

An expression is reduced if nothing in it has a shorter spelling: no class has the identifier of the top or
the bottom class, and every intersection and union has at least two operands (`Reduced`).  The normal form
of any expression is reduced, and a reduced expression whose operands are sets is its own normal form.

A set of operands that are rewritten can lose elements, so it becomes smaller, a single operand or nothing
(`assembled_cases`).  Each of these is reduced if the operands are, and none is deeper than a set with them.

Main statement: `normal_form_laws`.
-/

namespace Ontograph.ClassExpression

/-! ## Reduced expressions -/

/-- An expression for which there is a shorter one: a class with the identifier of the top or the bottom
class, or a set with fewer than two operands. -/
def Reducible : ClassExpression → Prop
  | named uri => uri = Vocabulary.owlThing ∨ uri = Vocabulary.owlNothing
  | intersection operands => operands.length < 2
  | union operands => operands.length < 2
  | _ => False

/-- No expression in the expression is reducible. -/
def Reduced (e : ClassExpression) : Prop :=
  ∀ s ∈ e.subterms, ¬ s.Reducible

theorem reduced_thing : thing.Reduced :=
  List.forall_mem_singleton.2 id

theorem reduced_nothing : nothing.Reduced :=
  List.forall_mem_singleton.2 id

theorem reduced_intersection {operands : List ClassExpression} :
    (intersection operands).Reduced ↔ 2 ≤ operands.length ∧ ∀ e ∈ operands, e.Reduced := by
  rw [Reduced, subterms, List.forall_mem_cons, forall_subtermsList]
  exact and_congr_left' Nat.not_lt

theorem reduced_union {operands : List ClassExpression} :
    (union operands).Reduced ↔ 2 ≤ operands.length ∧ ∀ e ∈ operands, e.Reduced := by
  rw [Reduced, subterms, List.forall_mem_cons, forall_subtermsList]
  exact and_congr_left' Nat.not_lt

theorem reduced_ofUri (uri : Uri) : (ofUri uri).Reduced := by
  unfold ofUri
  split
  · exact reduced_thing
  · next notThing =>
      split
      · exact reduced_nothing
      · next notNothing => simp [Reduced, subterms, Reducible, notThing, notNothing]

/-! ## Sets of operands -/

section Assembled

variable {neutral : ClassExpression} {build : List ClassExpression → ClassExpression}
  {l : List ClassExpression}

/-- A set of operands is the neutral expression, one of the operands, or a set with several of them. -/
theorem assembled_cases (neutral : ClassExpression)
    (build : List ClassExpression → ClassExpression) (l : List ClassExpression) :
    assembled neutral build l = neutral ∨ assembled neutral build l ∈ l ∨
      2 ≤ (Ascending.ofList l).length ∧
        assembled neutral build l = build (Ascending.ofList l) := by
  have members : ∀ e, e ∈ Ascending.ofList l → e ∈ l := fun e => Ascending.mem_ofList.1
  unfold assembled
  split
  · exact .inl rfl
  · next single => exact .inr (.inl (members _ (by simp [single])))
  · next empty single =>
      refine .inr (.inr ⟨?_, rfl⟩)
      match same : Ascending.ofList l with
      | [] => exact absurd same empty
      | [operand] => exact absurd same (single operand)
      | _ :: _ :: _ => simp

/-- A set that ascends and has several elements is kept. -/
theorem assembled_of_strict (strict : Ascending.Strict l) (several : 2 ≤ l.length) :
    assembled neutral build l = build l := by
  unfold assembled
  rw [Ascending.ofList_eq_self strict]
  match l, several with
  | _ :: _ :: _, _ => rfl

theorem reduced_assembled (base : neutral.Reduced)
    (larger : ∀ set, 2 ≤ set.length → (∀ e ∈ set, e.Reduced) → (build set).Reduced)
    (each : ∀ e ∈ l, e.Reduced) : (assembled neutral build l).Reduced := by
  rcases assembled_cases neutral build l with same | member | ⟨several, same⟩
  · rwa [same]
  · exact each _ member
  · rw [same]
    exact larger _ several fun e he => each e (Ascending.mem_ofList.1 he)

end Assembled

theorem reduced_intersectionOf {l : List ClassExpression} (each : ∀ e ∈ l, e.Reduced) :
    (intersectionOf l).Reduced :=
  reduced_assembled reduced_thing (fun _ several all => reduced_intersection.2 ⟨several, all⟩) each

theorem reduced_unionOf {l : List ClassExpression} (each : ∀ e ∈ l, e.Reduced) :
    (unionOf l).Reduced :=
  reduced_assembled reduced_nothing (fun _ several all => reduced_union.2 ⟨several, all⟩) each

/-! ## The normal form is reduced, and what is reduced is one -/

theorem reduced_normalized (e : ClassExpression) : e.normalized.Reduced := by
  induction e using induction with
  | named uri => exact reduced_ofUri uri
  | intersection operands ih =>
      rw [normalized, normalizedList_eq_map]
      exact reduced_intersectionOf (List.forall_mem_map.2 ih)
  | union operands ih =>
      rw [normalized, normalizedList_eq_map]
      exact reduced_unionOf (List.forall_mem_map.2 ih)
  | complement _ ih | objectSome _ _ ih | objectAll _ _ ih | objectCardinality _ _ _ _ ih =>
      exact List.forall_mem_cons.2 ⟨id, ih⟩
  | _ => exact List.forall_mem_singleton.2 id

theorem map_normalized_eq_self {operands : List ClassExpression}
    (each : ∀ e ∈ operands, e.normalized = e) : operands.map normalized = operands :=
  (List.map_congr_left each).trans (List.map_id _)

/-- Nothing is left to do on a reduced expression whose operands are sets. -/
theorem normalized_eq_self {e : ClassExpression} (canonical : e.Canonical) (reduced : e.Reduced) :
    e.normalized = e := by
  induction e using induction with
  | named uri =>
      have own := reduced _ List.mem_cons_self
      obtain ⟨notThing, notNothing⟩ := not_or.1 own
      exact (if_neg notThing).trans (if_neg notNothing)
  | intersection operands ih =>
      obtain ⟨strict, sets⟩ := canonical
      obtain ⟨several, each⟩ := reduced_intersection.1 reduced
      rw [normalized, normalizedList_eq_map,
        map_normalized_eq_self fun e he => ih e he (canonicalList_iff.1 sets e he) (each e he)]
      exact assembled_of_strict strict several
  | union operands ih =>
      obtain ⟨strict, sets⟩ := canonical
      obtain ⟨several, each⟩ := reduced_union.1 reduced
      rw [normalized, normalizedList_eq_map,
        map_normalized_eq_self fun e he => ih e he (canonicalList_iff.1 sets e he) (each e he)]
      exact assembled_of_strict strict several
  | complement _ ih | objectSome _ _ ih | objectAll _ _ ih | objectCardinality _ _ _ _ ih =>
      rw [normalized, ih canonical (List.forall_mem_cons.1 reduced).2]
  | _ => rfl

theorem normalized_normalized (e : ClassExpression) : e.normalized.normalized = e.normalized :=
  normalized_eq_self (canonical_normalized e) (reduced_normalized e)

theorem normalized_eq_self_iff {e : ClassExpression} :
    e.normalized = e ↔ e.Canonical ∧ e.Reduced := by
  constructor
  · intro same
    rw [← same]
    exact ⟨canonical_normalized e, reduced_normalized e⟩
  · rintro ⟨canonical, reduced⟩
    exact normalized_eq_self canonical reduced

/-! ## Depth -/

theorem depthList_le_iff {l : List ClassExpression} {n : Nat} :
    depthList l ≤ n ↔ ∀ e ∈ l, e.depth ≤ n := by
  induction l with
  | nil => simp [depthList]
  | cons a rest ih => rw [depthList, Nat.max_le, ih, List.forall_mem_cons]

/-- A set of operands is at most one level above them. -/
theorem depth_assembled_le {neutral : ClassExpression}
    {build : List ClassExpression → ClassExpression} (base : neutral.depth = 1)
    (above : ∀ set, (build set).depth = 1 + depthList set) {l : List ClassExpression} {n : Nat}
    (each : ∀ e ∈ l, e.depth ≤ n) : (assembled neutral build l).depth ≤ 1 + n := by
  rcases assembled_cases neutral build l with same | member | ⟨_, same⟩
  · rw [same, base]
    omega
  · have := each _ member
    omega
  · have deepest : depthList (Ascending.ofList l) ≤ n :=
      depthList_le_iff.2 fun e he => each e (Ascending.mem_ofList.1 he)
    rw [same, above]
    omega

/-- The normal form is not deeper. -/
theorem depth_normalized_le (e : ClassExpression) : e.normalized.depth ≤ e.depth := by
  -- Each operand is not deeper than the deepest operand was.
  have operand : ∀ {operands : List ClassExpression},
      (∀ e ∈ operands, e.normalized.depth ≤ e.depth) →
      ∀ e ∈ operands.map normalized, e.depth ≤ depthList operands := by
    intro operands ih
    refine List.forall_mem_map.2 fun e he => ?_
    exact Nat.le_trans (ih e he) (depthList_le_iff.1 (Nat.le_refl _) e he)
  induction e using induction with
  | named uri =>
      rw [normalized]
      unfold ofUri
      split
      · exact Nat.le_refl _
      · split <;> exact Nat.le_refl _
  | intersection operands ih =>
      rw [normalized, normalizedList_eq_map, depth]
      exact depth_assembled_le rfl (fun _ => rfl) (operand ih)
  | union operands ih =>
      rw [normalized, normalizedList_eq_map, depth]
      exact depth_assembled_le rfl (fun _ => rfl) (operand ih)
  | complement _ ih | objectSome _ _ ih | objectAll _ _ ih | objectCardinality _ _ _ _ ih =>
      exact Nat.add_le_add_left ih 1
  | _ => exact Nat.le_refl _

/-! ## Constructed expressions -/

/-- An expression that is built with the constructors that keep normal forms. -/
inductive Constructed : ClassExpression → Prop where
  | ofUri (uri : Uri) : Constructed (ofUri uri)
  | intersectionOf {operands : List ClassExpression}
      (each : ∀ operand ∈ operands, Constructed operand) : Constructed (intersectionOf operands)
  | unionOf {operands : List ClassExpression} (each : ∀ operand ∈ operands, Constructed operand) :
      Constructed (unionOf operands)
  | complement {operand : ClassExpression} (inner : Constructed operand) :
      Constructed (complement operand)
  | objectSome (property : Uri) {filler : ClassExpression} (inner : Constructed filler) :
      Constructed (objectSome property filler)
  | objectAll (property : Uri) {filler : ClassExpression} (inner : Constructed filler) :
      Constructed (objectAll property filler)
  | objectHas (property individual : Uri) : Constructed (objectHas property individual)
  | objectCardinality (restriction : Restriction) (count : UInt32) (property : Uri)
      {filler : ClassExpression} (inner : Constructed filler) :
      Constructed (objectCardinality restriction count property filler)
  | dataSome (property : Uri) : Constructed (dataSome property)
  | dataHas (property : Uri) (value : Literal) : Constructed (dataHas property value)
  | dataAll (property range : Uri) : Constructed (dataAll property range)

/-- The constructors build canonical and reduced expressions only. -/
theorem Constructed.canonical_reduced {e : ClassExpression} (h : Constructed e) :
    e.Canonical ∧ e.Reduced := by
  induction h with
  | ofUri uri => exact ⟨canonical_ofUri uri, reduced_ofUri uri⟩
  | intersectionOf _ ih =>
      exact ⟨.intersectionOf fun e he => (ih e he).1, reduced_intersectionOf fun e he => (ih e he).2⟩
  | unionOf _ ih =>
      exact ⟨.unionOf fun e he => (ih e he).1, reduced_unionOf fun e he => (ih e he).2⟩
  | complement _ ih | objectSome _ _ ih | objectAll _ _ ih | objectCardinality _ _ _ _ ih =>
      exact ⟨ih.1, List.forall_mem_cons.2 ⟨id, ih.2⟩⟩
  | objectHas | dataSome | dataHas | dataAll =>
      exact ⟨trivial, List.forall_mem_singleton.2 id⟩

/-- The normal form is built with the constructors. -/
theorem constructed_normalized (e : ClassExpression) : Constructed e.normalized := by
  induction e using induction with
  | thing =>
      show Constructed (intersectionOf [])
      exact .intersectionOf nofun
  | nothing =>
      show Constructed (unionOf [])
      exact .unionOf nofun
  | named uri => exact .ofUri uri
  | intersection operands ih =>
      rw [normalized, normalizedList_eq_map]
      exact .intersectionOf (List.forall_mem_map.2 ih)
  | union operands ih =>
      rw [normalized, normalizedList_eq_map]
      exact .unionOf (List.forall_mem_map.2 ih)
  | complement _ ih => exact .complement ih
  | objectSome property _ ih => exact .objectSome property ih
  | objectAll property _ ih => exact .objectAll property ih
  | objectHas property individual => exact .objectHas property individual
  | objectCardinality restriction count property _ ih =>
      exact .objectCardinality restriction count property ih
  | dataSome property => exact .dataSome property
  | dataHas property value => exact .dataHas property value
  | dataAll property range => exact .dataAll property range

/-- Normalizing again changes nothing.  The expressions that normalizing does not change are the reduced
ones, given that their operands are sets, and they are those that the constructors build.  The normal form
is not deeper than the expression. -/
theorem normal_form_laws (e : ClassExpression) :
    e.normalized.normalized = e.normalized ∧
      (e.normalized = e ↔ e.Canonical ∧ ∀ s ∈ e.subterms, ¬ s.Reducible) ∧
      e.normalized.depth ≤ e.depth ∧
      (Constructed e ↔ e.normalized = e) := by
  refine ⟨normalized_normalized e, normalized_eq_self_iff, depth_normalized_le e, ?_, ?_⟩
  · intro built
    exact normalized_eq_self_iff.2 built.canonical_reduced
  · intro same
    rw [← same]
    exact constructed_normalized e

end Ontograph.ClassExpression
