import Ontograph.Proofs.Ontology.Spellings
import Ontograph.Proofs.Query.Exactness
import Ontograph.Proofs.Query.Fragment
import Ontograph.Proofs.Query.Listing

/-!
# Individuals and nodes of the ontology

In a graph every node carries the resource label, and the nodes of the ontology itself, its classes and
properties, carry the label of their kind besides.  The individuals are all others: the catalog query for
all individuals leaves out the nodes with a label of the ontology.  The query is read as the template has it
(`CatalogQuery.template_of_sifting?`), and what it asks for are the individuals
(`CatalogQuery.nodes_of_sifting?`).

A pattern leaves out nothing.  It matches what an expression describes, and an expression asks for
labels, edges and attributes only (`Database.Carries`).  So a node of the ontology that carries what every
conjunct of an expression asks for can be matched, and no other.

Main statement: `Compiler.matched_individual_or_schema`.
-/

namespace Ontograph

/-! ## Conjuncts -/

namespace ClassExpression

/-- The conjuncts of an expression, apart from the top and the bottom class. -/
def conjuncts (e : ClassExpression) : List ClassExpression :=
  e.conjoinedClasses.map named ++ e.restrictions

/-- An expression that says nothing about its elements. -/
def Vacuous (e : ClassExpression) : Prop :=
  e.conjuncts = [] ∧ e.conjoinsNothing = false

theorem vacuous_intersection {operands : List ClassExpression} :
    (intersection operands).Vacuous ↔ ∀ e ∈ operands, e.Vacuous := by
  simp only [Vacuous, conjuncts, conjoinedClasses, restrictions, conjoinsNothing,
    List.append_eq_nil_iff, List.map_eq_nil_iff]
  induction operands with
  | nil => simp [conjoinedClassesList, restrictionsList, conjoinsNothingList]
  | cons a rest ih =>
      rw [List.forall_mem_cons, ← ih]
      simp only [conjoinedClassesList, restrictionsList, conjoinsNothingList,
        List.append_eq_nil_iff, Bool.or_eq_false_iff]
      tauto

theorem vacuous_intersectionOf {l : List ClassExpression} :
    (intersectionOf l).Vacuous ↔ ∀ e ∈ l, e.Vacuous := by
  have members : (∀ e ∈ Ascending.ofList l, e.Vacuous) ↔ ∀ e ∈ l, e.Vacuous := by
    simp only [Ascending.mem_ofList]
  rw [← members]
  unfold intersectionOf
  split
  · next empty => simp [empty, Vacuous, conjuncts, conjoinedClasses, restrictions, conjoinsNothing]
  · next single => simp [single]
  · exact vacuous_intersection

/-- The conjunction of nothing but the top class is the top class. -/
theorem intersectionOf_things {l : List ClassExpression} (all : ∀ e ∈ l, e = thing) :
    intersectionOf l = thing := by
  rw [intersectionOf_eq_assembled, assembled_eq_iff (fun _ => rfl) rfl]
  rcases eq_or_ne l [] with none | some
  · exact .inl ⟨none, rfl⟩
  · exact .inr ⟨some, all⟩

/-- The normal form of an expression that says nothing is the top class. -/
theorem Vacuous.normalized_eq_thing {e : ClassExpression} (h : e.normalized.Vacuous) :
    e.normalized = thing := by
  induction e using induction with
  | thing => rfl
  | named uri =>
      rw [normalized] at h ⊢
      unfold ofUri at h ⊢
      split at h
      · next top => rw [if_pos top]
      · split at h
        · cases h.2
        · cases h.1
  | intersection operands ih =>
      rw [normalized, normalizedList_eq_map] at h ⊢
      have parts := List.forall_mem_map.1 (vacuous_intersectionOf.1 h)
      exact intersectionOf_things (List.forall_mem_map.2 fun e he => ih e he (parts e he))
  | union operands ih =>
      revert h
      rw [normalized, normalizedList_eq_map, unionOf]
      split
      · exact fun h => by cases h.2
      · next e single =>
          have member : e ∈ Ascending.ofList (operands.map normalized) := by simp [single]
          obtain ⟨operand, ho, rfl⟩ := List.mem_map.1 (Ascending.mem_ofList.1 member)
          exact ih operand ho
      · exact fun h => by cases h.1
  | nothing => cases h.2
  | _ => cases h.1

end ClassExpression

/-! ## Nodes of the ontology -/

namespace Database

variable (D : Database)

/-- Every node carries the resource label. -/
def AllResources : Prop :=
  ∀ x, x ∈ D.labelled D.schema.resourceLabel

/-- The nodes of classes and properties. -/
def schemaNodes : Set D.Vertex :=
  D.labelled D.schema.classLabel ∪ D.labelled D.schema.objectPropertyLabel ∪
    D.labelled D.schema.dataPropertyLabel

/-- The nodes that the catalog query for all individuals asks for. -/
def individuals : Set D.Vertex :=
  D.labelled D.schema.resourceLabel \ D.schemaNodes

instance (x : D.Vertex) : Decidable (x ∈ D.schemaNodes) :=
  inferInstanceAs (Decidable ((_ ∨ _) ∨ _))

instance (x : D.Vertex) : Decidable (x ∈ D.individuals) :=
  inferInstanceAs (Decidable (_ ∧ ¬ _))

variable {D}

theorem AllResources.individual_or_schema (laid : D.AllResources) (x : D.Vertex) :
    x ∈ D.individuals ∨ x ∈ D.schemaNodes := by
  by_cases schema : x ∈ D.schemaNodes
  · exact .inr schema
  · exact .inl ⟨laid x, schema⟩

end Database

/-! ## The query for all individuals -/

/-- A query for the nodes with a label that have none of some others. -/
structure Sifting where
  var : String
  label : SchemaName
  others : List SchemaName
  column : String

namespace Sifting

/-- The pieces of the query. -/
def pieces (sifting : Sifting) : List Piece :=
  let lacks := sifting.others.map fun other =>
    [.text "NOT ", .text sifting.var, .text ":", .name other]
  [.text "MATCH (", .text sifting.var, .text ":", .name sifting.label, .text ")\nWHERE "] ++
    [.text " AND "].intercalate lacks ++
    [.text "\nRETURN ", .text sifting.var, .text " AS ", .text sifting.column]

/-- The nodes that the query asks for. -/
def nodes (sifting : Sifting) (D : Database) : Set D.Vertex :=
  {x | x ∈ D.labelled (sifting.label.value D.schema) ∧
    ∀ other ∈ sifting.others, x ∉ D.labelled (other.value D.schema)}

end Sifting

namespace CatalogQuery

/-- The reading of a query, if it is that for all individuals. -/
def sifting? : CatalogQuery → Option Sifting
  | allIndividuals =>
      some ⟨"ind", .resourceLabel, [.classLabel, .objectPropertyLabel, .dataPropertyLabel],
        Column.individual⟩
  | _ => none

variable {query : CatalogQuery} {sifting : Sifting}

/-- Spelled with tokens, the reading of the query is its template. -/
theorem template_of_sifting? (h : query.sifting? = some sifting) :
    query.template = Piece.join SchemaName.marked sifting.pieces ∧
      ∀ piece ∈ sifting.pieces, piece.isPlain = true := by
  cases query <;> cases h
  decide +kernel

/-- What the query asks for in a graph are the individuals. -/
theorem nodes_of_sifting? (h : query.sifting? = some sifting) (D : Database) :
    sifting.nodes D = D.individuals := by
  cases query <;> cases h
  ext x
  simp only [Sifting.nodes, Database.individuals, Database.schemaNodes, SchemaName.value,
    List.forall_mem_cons, List.not_mem_nil, false_implies, implies_true, and_true, Set.mem_ofPred_eq,
    Set.mem_sdiff, Set.mem_union, not_or, and_assoc]

end CatalogQuery

/-- The text of the query is its reading under the schema. -/
theorem Catalog.get_of_sifting? (schema : Schema) {query : CatalogQuery} {sifting : Sifting}
    (h : query.sifting? = some sifting) :
    (ofSchema schema).get query = .ok (Piece.join (SchemaName.written schema) sifting.pieces) :=
  get_of_pieces schema (CatalogQuery.template_of_sifting? h)

/-! ## What conjuncts ask for -/

namespace Database

variable {D : Database}

/-- What a conjunct asks of a node by itself: the label of a class, an edge of an object property, or an
attribute for a data property. -/
def Carries (x : D.Vertex) : ClassExpression → Prop
  | .named uri => x ∈ D.labelled uri
  | .objectSome property _ => ∃ y, D.graph.Adjacent x property y
  | .objectHas property _ => ∃ y, D.graph.Adjacent x property y
  | .dataSome property => (D.graph.node x).property? property ≠ none
  | .dataHas property _ => (D.graph.node x).property? property ≠ none
  | _ => False

/-- A restriction that has a pattern is carried by what it describes. -/
theorem carries_of_mem_restrictions {classes : Uri → Set D.Vertex} {x : D.Vertex}
    {r e : ClassExpression} (hr : r ∈ e.restrictions) (supported : r.Supported)
    (hx : x ∈ r.extension (D.interpretation classes)) : Carries x r := by
  induction e using ClassExpression.induction with
  | thing | nothing | named => cases hr
  | intersection operands ih =>
      obtain ⟨e, he, hr⟩ := ClassExpression.mem_restrictionsList.1 hr
      exact ih e he hr
  | objectSome | objectHas =>
      obtain rfl := List.mem_singleton.1 hr
      obtain ⟨y, adjacent, _⟩ := hx
      exact ⟨y, adjacent⟩
  | dataSome property =>
      obtain rfl := List.mem_singleton.1 hr
      intro absent
      have held : (D.graph.node x).hasAttribute property = true := hx
      simp [Node.hasAttribute, absent] at held
  | dataHas property value =>
      obtain rfl := List.mem_singleton.1 hr
      intro absent
      have held : (D.graph.node x).attributeIs property (fun v => D.equals v value) = true := hx
      simp [Node.attributeIs, absent] at held
  | union | complement | objectAll | objectCardinality | dataAll =>
      obtain rfl := List.mem_singleton.1 hr
      cases supported

/-- A class with a comment and an individual of it with another one. -/
def commented : Database where
  graph := {
    order := 2
    node := fun i =>
      if i.val = 0 then ⟨["Class", "Resource"], [("comment", .string "kind"), ("uri", .string "A")]⟩
      else ⟨["A", "Resource"], [("comment", .string "thing"), ("uri", .string "a")]⟩
    size := 0
    edge := nofun }
  schema := {}
  equals := fun _ _ => false
  inDatatype := fun _ _ => false

/-- The class. -/
def commentedClass : commented.Vertex := ⟨0, Nat.two_pos⟩

/-- The individual. -/
def commentedMember : commented.Vertex := ⟨1, Nat.one_lt_two⟩

theorem allResources_commented : commented.AllResources := by
  unfold AllResources
  decide

end Database

namespace Compiler

/-- What a pattern matches is an individual, or a node of the ontology that carries what each conjunct of
the expression asks for, and there is a conjunct.  So if every node of the ontology lacks something that
a conjunct asks for, all that is matched is among all individuals. -/
theorem matched_individual_or_schema {D : Database} (laid : D.AllResources) (procedure : String)
    {e : ClassExpression} {target : Option String} {q : Pattern}
    (h : (⟨D.schema, .direct, procedure⟩ : Compiler).pattern e target = .ok q) :
    (∀ x ∈ q.matched D, x ∈ D.individuals ∨
      x ∈ D.schemaNodes ∧ e.normalized.conjuncts ≠ [] ∧
        ∀ c ∈ e.normalized.conjuncts, Database.Carries x c) ∧
    ((∀ x ∈ D.schemaNodes, ∃ c ∈ e.normalized.conjuncts, ¬ Database.Carries x c) →
      q.matched D ⊆ D.individuals) := by
  obtain ⟨⟨notThing, _⟩, _, supported⟩ :=
    ClassExpression.patternFault?_eq_none.1 ((pattern_meets _ e target).ok_iff.1 ⟨q, h⟩)
  have carried : ∀ x ∈ q.matched D, e.normalized.conjuncts ≠ [] ∧
      ∀ c ∈ e.normalized.conjuncts, Database.Carries x c := by
    intro x hx
    rw [Pattern.matched_eq_extension h, ← ClassExpression.extension_normalized,
      (ClassExpression.Plain.normalized e).mem_extension_iff] at hx
    obtain ⟨⟨classes, consistent⟩, restrictions⟩ := hx
    refine ⟨fun none => notThing (ClassExpression.Vacuous.normalized_eq_thing ⟨none, consistent⟩), ?_⟩
    refine List.forall_mem_append.2 ⟨List.forall_mem_map.2 classes, fun r hr => ?_⟩
    have own := supported r (ClassExpression.mem_subterms_of_mem_restrictions hr)
    exact Database.carries_of_mem_restrictions hr own (restrictions r hr)
  constructor
  · intro x hx
    exact (laid.individual_or_schema x).imp_right fun schema => ⟨schema, carried x hx⟩
  · intro lacking x hx
    refine (laid.individual_or_schema x).resolve_right fun schema => ?_
    obtain ⟨c, hc, lacks⟩ := lacking x schema
    exact lacks ((carried x hx).2 c hc)

theorem matched_individual_or_schema_class :
    ∃ q, (⟨{}, .direct, "closure"⟩ : Compiler).pattern (.named "A") none = .ok q ∧
      Database.commentedMember ∈ q.matched .commented ∧
      q.matched .commented ⊆ Database.individuals .commented := by
  obtain ⟨q, lowered⟩ : ∃ q, (⟨{}, .direct, "closure"⟩ : Compiler).pattern (.named "A") none = .ok q :=
    ⟨_, rfl⟩
  have split := matched_individual_or_schema Database.allResources_commented "closure" lowered
  have member : Database.commentedMember ∈ Database.commented.labelled "A" := by decide
  have lacking : ∀ x ∈ Database.commented.schemaNodes, x ∉ Database.commented.labelled "A" := by
    decide
  refine ⟨q, lowered, ?_, split.2 fun x schema => ⟨.named "A", ?_, lacking x schema⟩⟩
  · rw [Pattern.matched_eq_extension lowered]
    exact member
  · exact List.mem_singleton.2 rfl

/-- A class with an attribute is matched by the restriction to that attribute, but is no individual. -/
theorem schema_node_matched :
    ∃ q, (⟨{}, .direct, "closure"⟩ : Compiler).pattern (.dataSome "comment") (some "individual") = .ok q ∧
      Database.commented.AllResources ∧ Database.commentedClass ∈ q.matched .commented ∧
      Database.commentedClass ∉ Database.individuals .commented := by
  obtain ⟨q, lowered⟩ : ∃ q, (⟨{}, .direct, "closure"⟩ : Compiler).pattern (.dataSome "comment")
      (some "individual") = .ok q := ⟨_, rfl⟩
  have held : (Database.commented.graph.node Database.commentedClass).hasAttribute "comment" = true :=
    rfl
  refine ⟨q, lowered, Database.allResources_commented, ?_, by decide⟩
  rw [Pattern.matched_eq_extension lowered]
  exact held

end Compiler

end Ontograph
