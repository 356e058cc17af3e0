import Mathlib.Data.Set.Card
import Ontograph.Ontology.ClassExpression.Canonical

/-!
# Extensions of class expressions

An interpretation says which elements belong to a class, which pairs an object property relates, which
elements an individual names, and which elements a restriction on data admits.  Every class expression
then has an *extension*, a set of elements.  The identifiers of the top and the bottom class are not
left to the interpretation: the first names everything and the second nothing.

A restriction on data is interpreted as a whole.  Whether an individual names one element is left to
the interpretation too, since a graph may hold an identifier twice or not at all.

In a *model* elements have literals as values, a datatype is a set of literals, and an individual is one
element.  A model is an interpretation, in which restrictions on data are about these values.

Main statements: `extension_normalized` (the normal form means the same in every interpretation) and
`meaning_normalized` (so it does in every model).
-/

namespace Ontograph

/-- What the names in class expressions mean in a domain. -/
structure Interpretation (Δ : Type) where
  /-- The members of a class. -/
  members : Uri → Set Δ
  /-- The pairs that an object property relates. -/
  relates : Uri → Δ → Δ → Prop
  /-- The elements that an individual names. -/
  named : Uri → Set Δ
  /-- The elements with a value of a data property. -/
  hasData : Uri → Set Δ
  /-- The elements with a given value of a data property. -/
  hasValue : Uri → Literal → Set Δ
  /-- The elements all of whose values of a data property are in a datatype. -/
  hasOnly : Uri → Uri → Set Δ

/-- Whether a restriction with a bound admits a number of fillers. -/
def Restriction.Admits : Restriction → UInt32 → ℕ∞ → Prop
  | min, bound, n => (bound.toNat : ℕ∞) ≤ n
  | max, bound, n => n ≤ (bound.toNat : ℕ∞)
  | exact, bound, n => n = (bound.toNat : ℕ∞)

namespace ClassExpression

variable {Δ : Type}

/-! ## Extensions -/

/-- The members of the class with an identifier. -/
def classExtension (I : Interpretation Δ) (uri : Uri) : Set Δ :=
  if uri = Vocabulary.owlThing then Set.univ
  else if uri = Vocabulary.owlNothing then ∅
  else I.members uri

mutual

/-- The elements that an expression describes. -/
def extension (I : Interpretation Δ) : ClassExpression → Set Δ
  | thing => Set.univ
  | nothing => ∅
  | named uri => classExtension I uri
  | intersection operands => commonExtension I operands
  | union operands => jointExtension I operands
  | complement operand => (operand.extension I)ᶜ
  | objectSome property filler => {x | ∃ y, I.relates property x y ∧ y ∈ filler.extension I}
  | objectAll property filler => {x | ∀ y, I.relates property x y → y ∈ filler.extension I}
  | objectHas property individual => {x | ∃ y, I.relates property x y ∧ y ∈ I.named individual}
  | objectCardinality restriction count property filler =>
      {x | restriction.Admits count {y | I.relates property x y ∧ y ∈ filler.extension I}.encard}
  | dataSome property => I.hasData property
  | dataHas property value => I.hasValue property value
  | dataAll property range => I.hasOnly property range

/-- The elements that all operands describe. -/
def commonExtension (I : Interpretation Δ) : List ClassExpression → Set Δ
  | [] => Set.univ
  | operand :: rest => operand.extension I ∩ commonExtension I rest

/-- The elements that some operand describes. -/
def jointExtension (I : Interpretation Δ) : List ClassExpression → Set Δ
  | [] => ∅
  | operand :: rest => operand.extension I ∪ jointExtension I rest

end

variable {I : Interpretation Δ} {x : Δ}

theorem mem_commonExtension {l : List ClassExpression} :
    x ∈ commonExtension I l ↔ ∀ e ∈ l, x ∈ e.extension I := by
  induction l with
  | nil => simp [commonExtension]
  | cons a rest ih => rw [commonExtension, Set.mem_inter_iff, ih, List.forall_mem_cons]

theorem mem_jointExtension {l : List ClassExpression} :
    x ∈ jointExtension I l ↔ ∃ e ∈ l, x ∈ e.extension I := by
  induction l with
  | nil => simp [jointExtension]
  | cons a rest ih =>
      rw [jointExtension, Set.mem_union, ih]
      simp

@[simp] theorem mem_extension_intersection {l : List ClassExpression} :
    x ∈ (intersection l).extension I ↔ ∀ e ∈ l, x ∈ e.extension I := by
  rw [extension, mem_commonExtension]

@[simp] theorem mem_extension_union {l : List ClassExpression} :
    x ∈ (union l).extension I ↔ ∃ e ∈ l, x ∈ e.extension I := by
  rw [extension, mem_jointExtension]

/-! ## The normal form -/

theorem extension_ofUri (uri : Uri) : (ofUri uri).extension I = classExtension I uri := by
  unfold ofUri classExtension
  split
  · simp only [extension]
  · next notThing =>
      split
      · simp only [extension]
      · next notNothing => simp only [extension, classExtension, if_neg notThing, if_neg notNothing]

theorem extension_intersectionOf (l : List ClassExpression) :
    (intersectionOf l).extension I = (intersection l).extension I := by
  ext x
  have members : (∀ e ∈ Ascending.ofList l, x ∈ e.extension I) ↔ ∀ e ∈ l, x ∈ e.extension I := by
    simp only [Ascending.mem_ofList]
  rw [mem_extension_intersection, ← members]
  unfold intersectionOf
  split
  · next empty => simp [extension, empty]
  · next single => simp [single]
  · exact mem_extension_intersection

theorem extension_unionOf (l : List ClassExpression) :
    (unionOf l).extension I = (union l).extension I := by
  ext x
  have members : (∃ e ∈ Ascending.ofList l, x ∈ e.extension I) ↔ ∃ e ∈ l, x ∈ e.extension I := by
    simp only [Ascending.mem_ofList]
  rw [mem_extension_union, ← members]
  unfold unionOf
  split
  · next empty => simp [extension, empty]
  · next single => simp [single]
  · exact mem_extension_union

/-- The normal form has the same extension in every interpretation. -/
theorem extension_normalized (I : Interpretation Δ) (e : ClassExpression) :
    e.normalized.extension I = e.extension I := by
  induction e using induction with
  | named uri => rw [normalized, extension_ofUri, extension]
  | intersection operands ih =>
      rw [normalized, normalizedList_eq_map, extension_intersectionOf]
      ext x
      simp only [mem_extension_intersection, List.forall_mem_map]
      exact forall₂_congr fun e he => by rw [ih e he]
  | union operands ih =>
      rw [normalized, normalizedList_eq_map, extension_unionOf]
      ext x
      rw [mem_extension_union, mem_extension_union]
      constructor
      · rintro ⟨_, mapped, hx⟩
        obtain ⟨e, he, rfl⟩ := List.mem_map.1 mapped
        exact ⟨e, he, ih e he ▸ hx⟩
      · rintro ⟨e, he, hx⟩
        exact ⟨e.normalized, List.mem_map_of_mem he, (ih e he).symm ▸ hx⟩
  | complement _ ih => rw [normalized, extension, extension, ih]
  | objectSome _ _ ih => rw [normalized, extension, extension, ih]
  | objectAll _ _ ih => rw [normalized, extension, extension, ih]
  | objectCardinality _ _ _ _ ih => rw [normalized, extension, extension, ih]
  | _ => rfl

end ClassExpression

/-! ## Models -/

/-- A domain with its classes, properties and individuals; elements have literals as values. -/
structure Model (Δ : Type) where
  /-- The members of a class. -/
  members : Uri → Set Δ
  /-- The pairs that an object property relates. -/
  relates : Uri → Δ → Δ → Prop
  /-- The element that an individual is. -/
  element : Uri → Δ
  /-- The values that an element has of a data property. -/
  values : Uri → Δ → Set Literal
  /-- The literals of a datatype. -/
  datatype : Uri → Set Literal

namespace Model

variable {Δ : Type} (M : Model Δ)

/-- What names mean in a model: a restriction on data asks for some value, for a given one, or that all
values are in a datatype. -/
def interpretation : Interpretation Δ where
  members := M.members
  relates := M.relates
  named individual := {M.element individual}
  hasData property := {x | (M.values property x).Nonempty}
  hasValue property value := {x | value ∈ M.values property x}
  hasOnly property range := {x | M.values property x ⊆ M.datatype range}

/-- The elements of a model that an expression describes. -/
def meaning (e : ClassExpression) : Set Δ :=
  e.extension M.interpretation

end Model

/-- The normal form describes the same elements in every model. -/
theorem ClassExpression.meaning_normalized {Δ : Type} (M : Model Δ) (e : ClassExpression) :
    M.meaning e.normalized = M.meaning e :=
  extension_normalized M.interpretation e

end Ontograph
