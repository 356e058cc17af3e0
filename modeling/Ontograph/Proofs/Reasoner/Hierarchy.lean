import Ontograph.Proofs.Reasoner.NormalForms
import Ontograph.Proofs.Reasoner.Serving

/-!
# Questions about the class hierarchy

What the questions about the class hierarchy answer if the store serves their queries from a graph.  Each
query has labels and identifiers of its own at the ends of the edges that it looks for.  The classes above a
class and the question whether one class is above another look at edges between two classes; the classes
below a class have edges to a node with its identifier, be that node a class or not (`Database.classesBelow`),
and the root classes are those with an edge to the top class or without any edge (`Database.rootClasses`).

So the three questions describe one relation, as far as the upper node is a class.  A question that lists
classes fails if one of them has no text as its identifier, whichever class it is.

Main statement: `Reasoner.hierarchy_questions_agree`.
-/

namespace Ontograph

/-! ## Classes of a graph -/

namespace Database

variable (D : Database)

/-- The nodes of classes. -/
def classNodes : Set D.Vertex :=
  D.labelled D.schema.classLabel

/-- A subclass-of edge leads from one vertex to another. -/
def Below (x y : D.Vertex) : Prop :=
  D.graph.Adjacent x D.schema.subclassOfType y

/-- The classes with an edge to a node that keeps an identifier, be it a class or not. -/
def classesBelow (uri : Uri) : Set D.Vertex :=
  {x | x ∈ D.classNodes ∧ ∃ y ∈ D.identified uri, D.Below x y}

/-- The classes to which an edge leads from a class that keeps an identifier. -/
def classesAbove (uri : Uri) : Set D.Vertex :=
  {y | ∃ x ∈ D.identified uri, x ∈ D.classNodes ∧ y ∈ D.classNodes ∧ D.Below x y}

/-- The classes with an edge to the node of the top class, and those without any edge. -/
def rootClasses : Set D.Vertex :=
  {x | x ∈ D.classNodes ∧
    ((∃ y ∈ D.identified Vocabulary.owlThing, D.Below x y) ∨ ∀ y, ¬ D.Below x y)}

instance (x : D.Vertex) : Decidable (x ∈ D.classNodes) :=
  inferInstanceAs (Decidable (x ∈ D.labelled _))

instance (x y : D.Vertex) : Decidable (D.Below x y) :=
  inferInstanceAs (Decidable (D.graph.Adjacent x _ y))

instance (uri : Uri) (x : D.Vertex) : Decidable (x ∈ D.classesBelow uri) :=
  inferInstanceAs (Decidable (_ ∧ ∃ _, _ ∧ _))

instance (uri : Uri) (y : D.Vertex) : Decidable (y ∈ D.classesAbove uri) :=
  inferInstanceAs (Decidable (∃ _, _ ∧ _ ∧ _ ∧ _))

variable {D} {listing : Listing} {parameters : List (String × Value)}

theorem returns_subClasses (reading : CatalogQuery.subClasses.listing? = some listing) {uri : Uri}
    (given : Assoc.find? "uri" parameters = some (.string uri)) (x : D.Vertex) :
    listing.Returns D parameters x ↔ x ∈ D.classesBelow uri := by
  cases reading
  simp only [Listing.Returns, List.mem_singleton, exists_eq_left, Branch.Returns, Spot.admits_label,
    Spot.admits_parameter D given]
  constructor
  · rintro ⟨_, y, hx, hy, below, rfl⟩
    exact ⟨hx, y, hy, below⟩
  · rintro ⟨hx, y, hy, below⟩
    exact ⟨x, y, hx, hy, below, rfl⟩

theorem returns_rootClasses (reading : CatalogQuery.rootClasses.listing? = some listing)
    (given : Assoc.find? "uri" parameters = some (.string Vocabulary.owlThing)) (x : D.Vertex) :
    listing.Returns D parameters x ↔ x ∈ D.rootClasses := by
  cases reading
  simp only [Listing.Returns, List.mem_cons, List.not_mem_nil, or_false, exists_eq_or_imp,
    exists_eq_left, Branch.Returns, Spot.admits_label, Spot.admits_parameter D given]
  constructor
  · rintro (⟨_, y, hx, hy, below, rfl⟩ | ⟨hx, none⟩)
    · exact ⟨hx, .inl ⟨y, hy, below⟩⟩
    · exact ⟨hx, .inr none⟩
  · rintro ⟨hx, ⟨y, hy, below⟩ | none⟩
    · exact .inl ⟨x, y, hx, hy, below, rfl⟩
    · exact .inr ⟨hx, none⟩

theorem returns_superClasses (reading : CatalogQuery.superClasses.listing? = some listing) {uri : Uri}
    (given : Assoc.find? "uri" parameters = some (.string uri)) (y : D.Vertex) :
    listing.Returns D parameters y ↔ y ∈ D.classesAbove uri := by
  cases reading
  simp only [Listing.Returns, List.mem_singleton, exists_eq_left, Branch.Returns, Spot.admits_label,
    Spot.admits_both D given]
  constructor
  · rintro ⟨x, _, ⟨hx, named⟩, hy, below, rfl⟩
    exact ⟨x, named, hx, hy, below⟩
  · rintro ⟨x, named, hx, hy, below⟩
    exact ⟨x, y, ⟨hx, named⟩, hy, below, rfl⟩

theorem returns_isSubClassOf (reading : CatalogQuery.isSubClassOf.listing? = some listing)
    {upper lower : Uri} (below : Assoc.find? "sub_uri" parameters = some (.string lower))
    (above : Assoc.find? "sup_uri" parameters = some (.string upper)) (x : D.Vertex) :
    listing.Returns D parameters x ↔ x ∈ D.identified lower ∧ x ∈ D.classNodes ∧
      ∃ y ∈ D.identified upper, y ∈ D.classNodes ∧ D.Below x y := by
  cases reading
  simp only [Listing.Returns, List.mem_singleton, exists_eq_left, Branch.Returns,
    Spot.admits_both D below, Spot.admits_both D above]
  constructor
  · rintro ⟨_, y, ⟨hx, lower⟩, ⟨hy, upper⟩, edge, rfl⟩
    exact ⟨lower, hx, y, upper, hy, edge⟩
  · rintro ⟨lower, hx, y, upper, hy, edge⟩
    exact ⟨x, y, ⟨hx, lower⟩, ⟨hy, upper⟩, edge, rfl⟩

end Database

/-! ## Answers about the hierarchy -/

/-- An answer is the set of the identifiers of some vertices. -/
def Database.Shows (D : Database) (outcome : Except Failure Answer) (vertices : Set D.Vertex) : Prop :=
  ∃ found, outcome = .ok (.uris found) ∧ Names found vertices

namespace Reasoner

variable {σ : Type} {D : Database} {config : Config} {store : GraphStore σ}

/-! ### Plans -/

theorem subClasses_of_thing (r : Reasoner) {e : ClassExpression} (top : e.normalized = .thing) :
    r.subClasses e = r.listFor .rootClasses Vocabulary.owlThing := by
  rw [subClasses, namedClass_eq "sub_classes" (congrArg ClassExpression.namedUri? top)]
  exact (if_neg (by decide)).trans (if_pos rfl)

theorem subClasses_of_named (r : Reasoner) {e : ClassExpression} {uri : Uri}
    (named : e.normalized = .named uri)
    (proper : uri ≠ Vocabulary.owlThing ∧ uri ≠ Vocabulary.owlNothing) :
    r.subClasses e = r.listFor .subClasses uri := by
  rw [subClasses, namedClass_eq "sub_classes" (congrArg ClassExpression.namedUri? named)]
  exact (if_neg proper.2).trans (if_neg proper.1)

theorem superClasses_of_named (r : Reasoner) {e : ClassExpression} {uri : Uri}
    (named : e.normalized = .named uri) (notTop : uri ≠ Vocabulary.owlThing) :
    r.superClasses e = r.listFor .superClasses uri := by
  rw [superClasses, namedClass_eq "super_classes" (congrArg ClassExpression.namedUri? named)]
  exact if_neg notTop

theorem isSuperClassOf_of_named (r : Reasoner) {upper lower : ClassExpression} {sup sub : Uri}
    (upper_named : upper.normalized = .named sup) (lower_named : lower.normalized = .named sub)
    (notTop : sup ≠ Vocabulary.owlThing) (notBottom : sub ≠ Vocabulary.owlNothing)
    (different : sup ≠ sub) :
    r.isSuperClassOf upper lower =
      r.query .isSubClassOf [("sub_uri", sub), ("sup_uri", sup)] fun rows => .ok !rows.isEmpty := by
  rw [isSuperClassOf,
    namedClass_eq "is_super_class_of" (congrArg ClassExpression.namedUri? upper_named),
    namedClass_eq "is_super_class_of" (congrArg ClassExpression.namedUri? lower_named)]
  refine if_neg ?_
  rintro (top | bottom | same)
  · exact notTop top
  · exact notBottom bottom
  · exact different same

theorem find?_subThenSup_sub (text sub sup : String) :
    Assoc.find? "sub_uri" (Statement.withTexts text [("sub_uri", sub), ("sup_uri", sup)]).parameters =
      some (.string sub) := by
  simp only [Statement.withTexts, Statement.bind, List.foldl_cons, List.foldl_nil]
  rw [Assoc.find?_put, if_neg (by decide), Assoc.find?_put, if_pos (by decide)]

theorem find?_subThenSup_sup (text sub sup : String) :
    Assoc.find? "sup_uri" (Statement.withTexts text [("sub_uri", sub), ("sup_uri", sup)]).parameters =
      some (.string sup) := by
  simp only [Statement.withTexts, Statement.bind, List.foldl_cons, List.foldl_nil]
  rw [Assoc.find?_put, if_pos (by decide)]

/-! ### Answers -/

section Asking

variable (schema : config.schema = D.schema)

include schema

/-- Identifiers are listed by reading them from rows that the query lists of the graph. -/
theorem run_listFor {query : CatalogQuery} {listing : Listing}
    (reading : query.listing? = some listing) (serves : store.Serves D query) (uri : Uri)
    (c : Connection σ) :
    ∃ rows, (((ofConfig config).listFor query uri).run store c).1 =
        Row.uris D.schema rows Column.uri ∧
      listing.Lists D [("uri", .string uri)] rows := by
  rw [← schema]
  exact run_served schema reading serves [("uri", uri)]
    (fun rows => Row.uris config.schema rows Column.uri) c

theorem shows_listFor {query : CatalogQuery} {listing : Listing}
    (reading : query.listing? = some listing) (unlimited : listing.limit = none)
    (serves : store.Serves D query) {uri : Uri} {vertices : Set D.Vertex}
    (listed : ∀ x, listing.Returns D [("uri", .string uri)] x ↔ x ∈ vertices)
    (identified : ∀ x ∈ vertices, (D.identity? x).isSome) (c : Connection σ) :
    D.Shows ((((ofConfig config).listFor query uri).map Answer.uris).run store c).1 vertices := by
  obtain ⟨rows, run, lists⟩ := run_listFor schema reading serves uri c
  obtain ⟨found, uris, names⟩ := Database.uris_of_lists unlimited lists listed identified
  refine ⟨found, ?_, names⟩
  rw [Plan.run_map, run, uris]
  rfl

theorem shows_rootClasses (serves : store.Serves D .rootClasses) {e : ClassExpression}
    (top : e.normalized = .thing)
    (identified : ∀ x ∈ D.rootClasses, (D.identity? x).isSome) (c : Connection σ) :
    D.Shows ((ofConfig config).answer store (.subClasses e) c).1 D.rootClasses := by
  rw [answer, plan, subClasses_of_thing _ top]
  exact shows_listFor schema rfl rfl serves (Database.returns_rootClasses rfl rfl) identified c

theorem shows_subClasses (serves : store.Serves D .subClasses) {e : ClassExpression} {uri : Uri}
    (named : e.normalized = .named uri)
    (proper : uri ≠ Vocabulary.owlThing ∧ uri ≠ Vocabulary.owlNothing)
    (identified : ∀ x ∈ D.classesBelow uri, (D.identity? x).isSome) (c : Connection σ) :
    D.Shows ((ofConfig config).answer store (.subClasses e) c).1 (D.classesBelow uri) := by
  rw [answer, plan, subClasses_of_named _ named proper]
  exact shows_listFor schema rfl rfl serves (Database.returns_subClasses rfl rfl) identified c

theorem shows_superClasses (serves : store.Serves D .superClasses) {e : ClassExpression} {uri : Uri}
    (named : e.normalized = .named uri) (notTop : uri ≠ Vocabulary.owlThing)
    (identified : ∀ x ∈ D.classesAbove uri, (D.identity? x).isSome) (c : Connection σ) :
    D.Shows ((ofConfig config).answer store (.superClasses e) c).1 (D.classesAbove uri) := by
  rw [answer, plan, superClasses_of_named _ named notTop]
  exact shows_listFor schema rfl rfl serves (Database.returns_superClasses rfl rfl) identified c

/-- If the classes below a class are listed, the identifier of each of them can be read. -/
theorem readable_of_subClasses (serves : store.Serves D .subClasses) {e : ClassExpression} {uri : Uri}
    (named : e.normalized = .named uri)
    (proper : uri ≠ Vocabulary.owlThing ∧ uri ≠ Vocabulary.owlNothing) {c : Connection σ}
    {found : List Uri} (h : ((ofConfig config).answer store (.subClasses e) c).1 = .ok (.uris found)) :
    ∀ x ∈ D.classesBelow uri, ∃ own, (D.uriRow x).uri D.schema Column.uri = .ok own := by
  obtain ⟨listing, reading, unlimited⟩ : ∃ listing,
      CatalogQuery.subClasses.listing? = some listing ∧ listing.limit = none := ⟨_, rfl, rfl⟩
  obtain ⟨rows, run, lists⟩ := run_listFor schema reading serves uri c
  rw [answer, plan, subClasses_of_named _ named proper, Plan.run_map, run] at h
  have uris : ∃ all, Row.uris D.schema rows Column.uri = .ok all := by
    cases outcome : Row.uris D.schema rows Column.uri with
    | ok all => exact ⟨all, rfl⟩
    | error failure =>
        rw [outcome] at h
        cases h
  intro x hx
  exact Row.exists_uris_iff.1 uris _
    (lists.complete (by simp [unlimited]) x ((Database.returns_subClasses reading rfl x).2 hx))

/-- Whether a class is above another one is whether the query for it has a row. -/
theorem answer_isSuperClassOf (serves : store.Serves D .isSubClassOf) {upper lower : ClassExpression}
    {sup sub : Uri} (upper_named : upper.normalized = .named sup)
    (lower_named : lower.normalized = .named sub) (notTop : sup ≠ Vocabulary.owlThing)
    (notBottom : sub ≠ Vocabulary.owlNothing) (different : sup ≠ sub) (c : Connection σ) :
    ∃ above, ((ofConfig config).answer store (.isSuperClassOf upper lower) c).1 = .ok (.truth above) ∧
      (above = true ↔ ∃ x ∈ D.identified sub, x ∈ D.classNodes ∧
        ∃ y ∈ D.identified sup, y ∈ D.classNodes ∧ D.Below x y) := by
  obtain ⟨listing, reading, limit⟩ : ∃ listing,
      CatalogQuery.isSubClassOf.listing? = some listing ∧ listing.limit = some 1 := ⟨_, rfl, rfl⟩
  obtain ⟨rows, read, lists⟩ := run_served schema reading serves [("sub_uri", sub), ("sup_uri", sup)]
    (fun rows => .ok !rows.isEmpty) c
  have returns := Database.returns_isSubClassOf (D := D) reading
    (find?_subThenSup_sub (listing.text D.schema) sub sup) (find?_subThenSup_sup _ sub sup)
  have some : (!rows.isEmpty) = true ↔ ∃ row, row ∈ rows := by
    rw [Bool.not_eq_true', List.isEmpty_eq_false_iff_exists_mem]
  refine ⟨!rows.isEmpty, ?_, ?_⟩
  · rw [answer, plan, isSuperClassOf_of_named _ upper_named lower_named notTop notBottom different,
      Plan.run_map, read]
    rfl
  · rw [some]
    constructor
    · rintro ⟨row, hr⟩
      obtain ⟨x, hx, _⟩ := lists.sound row hr
      obtain ⟨lower, own, above⟩ := (returns x).1 hx
      exact ⟨x, lower, own, above⟩
    · rintro ⟨x, lower, own, above⟩
      by_contra none
      -- Without rows the limit is not reached, so the query lists nothing.
      have empty : rows = [] := List.eq_nil_iff_forall_not_mem.2 fun row hr => none ⟨row, hr⟩
      have shown := lists.complete (by simp [limit, empty]) x ((returns x).2 ⟨lower, own, above⟩)
      exact none ⟨_, shown⟩

end Asking

/-! ## One relation -/

/-- The normal form of a proper class. -/
theorem normalized_named {uri : Uri}
    (proper : uri ≠ Vocabulary.owlThing ∧ uri ≠ Vocabulary.owlNothing) :
    (ClassExpression.named uri).normalized = .named uri :=
  (if_neg proper.1).trans (if_neg proper.2)

/-- The questions about the hierarchy describe one relation.  Of two classes, it is answered whether the
upper one is above the lower one.  If all classes below the upper one have identifiers, they are listed:
the lower one is among them if the upper one is above it, and only then if all nodes with the identifier of
the upper one are classes.  If all classes above the lower one have identifiers, they are listed, and the
upper one is among them exactly if it is above the lower one. -/
theorem hierarchy_questions_agree (schema : config.schema = D.schema)
    (serves : ∀ query ∈ [CatalogQuery.subClasses, .superClasses, .isSubClassOf], store.Serves D query)
    {x y : Uri} (different : x ≠ y)
    (x_proper : x ≠ Vocabulary.owlThing ∧ x ≠ Vocabulary.owlNothing)
    (y_proper : y ≠ Vocabulary.owlThing ∧ y ≠ Vocabulary.owlNothing) (c₁ c₂ c₃ : Connection σ) :
    ∃ above, ((ofConfig config).answer store (.isSuperClassOf (.named x) (.named y)) c₁).1 =
        .ok (.truth above) ∧
      ((∀ v ∈ D.classesBelow x, (D.identity? v).isSome) →
        ∃ subs, ((ofConfig config).answer store (.subClasses (.named x)) c₂).1 = .ok (.uris subs) ∧
          (above = true → y ∈ subs) ∧
          (D.identified x ⊆ D.classNodes → y ∈ subs → above = true)) ∧
      ((∀ v ∈ D.classesAbove y, (D.identity? v).isSome) →
        ∃ supers, ((ofConfig config).answer store (.superClasses (.named y)) c₃).1 =
            .ok (.uris supers) ∧
          (x ∈ supers ↔ above = true)) := by
  obtain ⟨subServed, superServed, isServed⟩ : store.Serves D .subClasses ∧
      store.Serves D .superClasses ∧ store.Serves D .isSubClassOf := by simpa using serves
  have upper := normalized_named x_proper
  have lower := normalized_named y_proper
  obtain ⟨above, answered, holds⟩ := answer_isSuperClassOf schema isServed upper lower x_proper.1
    y_proper.2 different c₁
  refine ⟨above, answered, fun identified => ?_, fun identified => ?_⟩
  · obtain ⟨subs, listed, names⟩ := shows_subClasses schema subServed upper x_proper identified c₂
    refine ⟨subs, listed, fun is => ?_, fun labelled mem => ?_⟩
    · obtain ⟨v, hv, own, w, hw, _, edge⟩ := holds.1 is
      exact (names y).2 ⟨v, ⟨own, w, hw, edge⟩, Database.mem_identified.1 hv⟩
    · obtain ⟨v, ⟨own, w, hw, edge⟩, hv⟩ := (names y).1 mem
      exact holds.2 ⟨v, Database.mem_identified.2 hv, own, w, hw, labelled hw, edge⟩
  · obtain ⟨supers, listed, names⟩ := shows_superClasses schema superServed lower y_proper.1 identified c₃
    refine ⟨supers, listed, ?_⟩
    rw [names x, holds]
    constructor
    · rintro ⟨w, ⟨v, hv, own, hw, edge⟩, named⟩
      exact ⟨v, hv, own, w, Database.mem_identified.2 named, hw, edge⟩
    · rintro ⟨v, hv, own, w, hw, labelled, edge⟩
      exact ⟨w, ⟨v, hv, own, labelled, edge⟩, Database.mem_identified.1 hw⟩

end Reasoner

/-! ## Small hierarchies -/

namespace Database

/-- The node of a class. -/
def classNode (uri : Uri) : Node :=
  ⟨["Class", "Resource"], [("uri", .string uri)]⟩

/-- A node with a subclass-of edge to another. -/
def pair (lower upper : Node) : Database where
  graph := {
    order := 2
    node := fun i => if i.val = 0 then lower else upper
    size := 1
    edge := fun _ => ⟨⟨0, Nat.zero_lt_two⟩, "SCO", ⟨1, Nat.one_lt_two⟩⟩ }
  schema := {}
  equals := fun _ _ => false
  inDatatype := fun _ _ => false

/-- A class below another class. -/
def declaredAbove : Database :=
  pair (classNode "A") (classNode "B")

/-- A class below a node that is no class. -/
def undeclaredAbove : Database :=
  pair (classNode "A") ⟨["Resource"], [("uri", .string "B")]⟩

/-- The class. -/
def underUndeclared : undeclaredAbove.Vertex :=
  ⟨0, Nat.zero_lt_two⟩

/-- Two classes below a class; one of them has no identifier. -/
def anonymousSibling : Database where
  graph := {
    order := 3
    node := fun i =>
      if i = 0 then classNode "B" else if i = 1 then classNode "A" else ⟨["Class", "Resource"], []⟩
    size := 2
    edge := fun i => ⟨i.succ, "SCO", 0⟩ }
  schema := {}
  equals := fun _ _ => false
  inDatatype := fun _ _ => false

/-- The class without identifier. -/
def anonymousClass : anonymousSibling.Vertex :=
  (2 : Fin 3)

end Database

namespace Reasoner

theorem hierarchy_questions_agree_declared :
    let answer question :=
      ((ofConfig {}).answer Database.declaredAbove.store question ⟨(), .empty⟩).1
    ∃ above subs supers, answer (.isSuperClassOf (.named "B") (.named "A")) = .ok (.truth above) ∧
      answer (.subClasses (.named "B")) = .ok (.uris subs) ∧
      answer (.superClasses (.named "A")) = .ok (.uris supers) ∧
      ("A" ∈ subs ↔ "B" ∈ supers) ∧ ("B" ∈ supers ↔ above = true) := by
  have serves := Database.store_serves (D := .declaredAbove) Schema.separatesListings_default
  have schema : ({} : Config).schema = Database.declaredAbove.schema := rfl
  obtain ⟨above, answered, down, up⟩ := hierarchy_questions_agree (x := "B") (y := "A") schema
    (fun query _ => serves query) (by decide) (by decide) (by decide) ⟨(), .empty⟩ ⟨(), .empty⟩
    ⟨(), .empty⟩
  obtain ⟨subs, listed, among, only⟩ := down (by decide)
  obtain ⟨supers, listed', same⟩ := up (by decide)
  have labelled : ∀ v ∈ Database.declaredAbove.identified "B",
      v ∈ Database.declaredAbove.classNodes := by decide
  exact ⟨above, subs, supers, answered, listed, listed',
    ⟨fun mem => same.2 (only labelled mem), fun mem => among (same.1 mem)⟩, same⟩

/-- The questions differ where the upper node is no class: a class is listed below it, but the node is not
listed above that class, nor said to be above it.  They also differ where a class has no identifier: then no
class is listed beside it, though another one is said to be below the same class. -/
theorem hierarchy_questions_differ :
    (let answer question :=
      ((ofConfig {}).answer Database.undeclaredAbove.store question ⟨(), .empty⟩).1
    (∀ v ∈ Database.undeclaredAbove.identified "A", v ∈ Database.undeclaredAbove.classNodes) ∧
      ∃ subs supers, answer (.subClasses (.named "B")) = .ok (.uris subs) ∧ "A" ∈ subs ∧
        answer (.superClasses (.named "A")) = .ok (.uris supers) ∧ "B" ∉ supers ∧
        answer (.isSuperClassOf (.named "B") (.named "A")) = .ok (.truth false)) ∧
    (let answer question :=
      ((ofConfig {}).answer Database.anonymousSibling.store question ⟨(), .empty⟩).1
    (∀ v ∈ Database.anonymousSibling.identified "A", v ∈ Database.anonymousSibling.classNodes) ∧
      answer (.isSuperClassOf (.named "B") (.named "A")) = .ok (.truth true) ∧
      ∀ subs, answer (.subClasses (.named "B")) ≠ .ok (.uris subs)) := by
  have upper : (ClassExpression.named "B").normalized = .named "B" := normalized_named (by decide)
  have lower : (ClassExpression.named "A").normalized = .named "A" := normalized_named (by decide)
  constructor
  · have serves := Database.store_serves (D := .undeclaredAbove) Schema.separatesListings_default
    have schema : ({} : Config).schema = Database.undeclaredAbove.schema := rfl
    obtain ⟨subs, down, below⟩ := shows_subClasses schema (serves _) upper (by decide)
      (by decide) ⟨(), .empty⟩
    obtain ⟨supers, up, above⟩ := shows_superClasses schema (serves _) lower (by decide)
      (by decide) ⟨(), .empty⟩
    obtain ⟨is, answered, holds⟩ := answer_isSuperClassOf schema (serves _) upper lower
      (by decide) (by decide) (by decide) ⟨(), .empty⟩
    have listed : "A" ∈ subs := (below "A").2 ⟨Database.underUndeclared, by decide, by decide⟩
    have unlisted : "B" ∉ supers := by
      intro mem
      obtain ⟨x, hx, _⟩ := (above "B").1 mem
      exact absurd hx (by revert x; decide)
    have no : is = false := by
      rw [← Bool.not_eq_true, holds]
      decide
    exact ⟨by decide, subs, supers, down, listed, up, unlisted, no ▸ answered⟩
  · have serves := Database.store_serves (D := .anonymousSibling) Schema.separatesListings_default
    have schema : ({} : Config).schema = Database.anonymousSibling.schema := rfl
    obtain ⟨is, answered, holds⟩ := answer_isSuperClassOf schema (serves _) upper lower
      (by decide) (by decide) (by decide) ⟨(), .empty⟩
    have yes : is = true := holds.2 (by decide)
    refine ⟨by decide, yes ▸ answered, fun subs down => ?_⟩
    obtain ⟨own, read⟩ := readable_of_subClasses schema (serves _) upper (by decide) down
      Database.anonymousClass (by decide)
    cases read

end Reasoner

end Ontograph
