import Ontograph.Proofs.Ontology.Subterms

/-!
# Spellings of named classes

A named class, the top and the bottom class among them, has many spellings: its identifier, a set with no
other operands than spellings of it, and for the top and the bottom class also an empty set.  These are all
the expressions that have it as their normal form.

Main statement: `normalized_eq_iff_spells`.
-/

namespace Ontograph.ClassExpression

/-- The spellings of an expression, which is meant to be a named one. -/
inductive Spells : ClassExpression → ClassExpression → Prop where
  | thing : Spells thing thing
  | nothing : Spells nothing nothing
  | named (uri : Uri) : Spells (ofUri uri) (named uri)
  | noOperands : Spells thing (intersection [])
  | noOptions : Spells nothing (union [])
  | intersection {e : ClassExpression} {operands : List ClassExpression} (some : operands ≠ [])
      (each : ∀ operand ∈ operands, Spells e operand) : Spells e (intersection operands)
  | union {e : ClassExpression} {operands : List ClassExpression} (some : operands ≠ [])
      (each : ∀ operand ∈ operands, Spells e operand) : Spells e (union operands)

/-- A set of operands as an expression: `neutral` if there is none, and a single operand itself. -/
def assembled (neutral : ClassExpression) (build : List ClassExpression → ClassExpression)
    (operands : List ClassExpression) : ClassExpression :=
  match Ascending.ofList operands with
  | [] => neutral
  | [operand] => operand
  | set => build set

theorem intersectionOf_eq_assembled : intersectionOf = assembled thing intersection := rfl

theorem unionOf_eq_assembled : unionOf = assembled nothing union := rfl

/-- A set of operands is a named expression exactly if all operands are this expression, or if there is
none and it is the neutral one. -/
theorem assembled_eq_iff {neutral e : ClassExpression}
    {build : List ClassExpression → ClassExpression}
    (anonymous : ∀ operands, (build operands).isAnonymous = true) (named : e.isAnonymous = false)
    {l : List ClassExpression} :
    assembled neutral build l = e ↔ l = [] ∧ neutral = e ∨ l ≠ [] ∧ ∀ operand ∈ l, operand = e := by
  have none : Ascending.ofList l = [] ↔ l = [] := by
    simp only [List.eq_nil_iff_forall_not_mem, Ascending.mem_ofList]
  rw [← Ascending.ofList_eq_singleton, ← none]
  unfold assembled
  split
  · next empty => simp [empty]
  · next single => simp [single]
  · next empty single =>
      have other : build (Ascending.ofList l) ≠ e := by
        rintro rfl
        exact absurd (anonymous (Ascending.ofList l)) (by simp [named])
      refine iff_of_false other ?_
      rintro (⟨none, -⟩ | one)
      · exact empty none
      · exact single e one

/-- What a set of operands is a spelling of. -/
theorem assembled_map_normalized {neutral e : ClassExpression}
    {build : List ClassExpression → ClassExpression}
    (anonymous : ∀ operands, (build operands).isAnonymous = true) (named : e.isAnonymous = false)
    {operands : List ClassExpression}
    (each : ∀ operand ∈ operands, operand.normalized = e ↔ Spells e operand) :
    assembled neutral build (operands.map normalized) = e ↔
      operands = [] ∧ neutral = e ∨ operands ≠ [] ∧ ∀ operand ∈ operands, Spells e operand := by
  rw [assembled_eq_iff anonymous named, List.forall_mem_map, forall₂_congr each]
  simp

/-- The expressions with a named normal form are its spellings. -/
theorem normalized_eq_iff_spells {e : ClassExpression} (named : e.isAnonymous = false)
    {spelling : ClassExpression} : spelling.normalized = e ↔ Spells e spelling := by
  induction spelling using induction with
  | thing =>
      refine ⟨?_, fun h => by cases h; rfl⟩
      rintro rfl
      exact .thing
  | nothing =>
      refine ⟨?_, fun h => by cases h; rfl⟩
      rintro rfl
      exact .nothing
  | named uri =>
      refine ⟨?_, fun h => by cases h; rfl⟩
      rintro rfl
      exact .named uri
  | intersection operands ih =>
      rw [normalized, normalizedList_eq_map, intersectionOf_eq_assembled,
        assembled_map_normalized (fun _ => rfl) named ih]
      constructor
      · rintro (⟨rfl, rfl⟩ | ⟨some, each⟩)
        · exact .noOperands
        · exact .intersection some each
      · intro h
        cases h with
        | noOperands => exact .inl ⟨rfl, rfl⟩
        | intersection some each => exact .inr ⟨some, each⟩
  | union operands ih =>
      rw [normalized, normalizedList_eq_map, unionOf_eq_assembled,
        assembled_map_normalized (fun _ => rfl) named ih]
      constructor
      · rintro (⟨rfl, rfl⟩ | ⟨some, each⟩)
        · exact .noOptions
        · exact .union some each
      · intro h
        cases h with
        | noOptions => exact .inl ⟨rfl, rfl⟩
        | union some each => exact .inr ⟨some, each⟩
  | _ =>
      constructor
      · rintro rfl
        cases named
      · intro h
        cases h

end Ontograph.ClassExpression
