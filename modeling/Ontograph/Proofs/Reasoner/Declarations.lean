import Mathlib.Data.Set.Finite.List
import Ontograph.Proofs.Ontology.NormalForm
import Ontograph.Proofs.Query.OperandSets
import Ontograph.Proofs.Reasoner.Rows

/-!
# Domains and ranges

An ontology may declare any number of classes as the domain of a property, and all of them count.  The
answer to a question about a domain or a range is therefore made from the set of identifiers that the rows
of the reply carry (`Reasoner.Lists`): one expression in normal form that means the conjunction of the
classes, the top and the bottom class among them (`ClassExpression.Conjoins`), or one range that lists the
datatypes (`DataRange.Conjoins`).

The top class is not left out of a conjunction with others, so a conjunction is the top class itself only
if nothing else is declared.  The same goes for the datatype of all literals.

Main statement: `Reasoner.declarations_conjoined`.
-/

namespace Ontograph

/-! ## Conjunctions of classes -/

namespace ClassExpression

/-- An expression in normal form is the conjunction of the classes with some identifiers. -/
structure Conjoins (e : ClassExpression) (uris : Set Uri) : Prop where
  normal : e.normalized = e
  isThing : e = thing ↔ ∀ uri ∈ uris, uri = Vocabulary.owlThing
  /-- In every interpretation it describes what all of the classes describe. -/
  means : ∀ {Δ : Type} (I : Interpretation Δ), e.extension I = ⋂ uri ∈ uris, (named uri).extension I

theorem ofUri_eq_thing {uri : Uri} : ofUri uri = thing ↔ uri = Vocabulary.owlThing := by
  unfold ofUri
  split_ifs with top bottom
  · simp [top]
  · simp [top]
  · simp [top]

/-- A conjunction is the top class exactly if no operand is anything else. -/
theorem intersectionOf_eq_thing {l : List ClassExpression} :
    intersectionOf l = thing ↔ ∀ e ∈ l, e = thing := by
  rw [intersectionOf_eq_assembled, assembled_eq_iff (fun _ => rfl) rfl]
  constructor
  · rintro (⟨rfl, -⟩ | ⟨-, all⟩)
    · exact nofun
    · exact all
  · intro all
    rcases eq_or_ne l [] with none | some
    · exact .inl ⟨none, rfl⟩
    · exact .inr ⟨some, all⟩

theorem conjoins_intersectionOf (uris : List Uri) :
    (intersectionOf (uris.map ofUri)).Conjoins {uri | uri ∈ uris} where
  normal := by
    have built : Constructed (intersectionOf (uris.map ofUri)) :=
      .intersectionOf (List.forall_mem_map.2 fun uri _ => .ofUri uri)
    exact normalized_eq_self_iff.2 built.canonical_reduced
  isThing := by
    rw [intersectionOf_eq_thing, List.forall_mem_map]
    exact forall₂_congr fun _ _ => ofUri_eq_thing
  means I := by
    ext x
    rw [extension_intersectionOf, mem_extension_intersection, List.forall_mem_map, Set.mem_iInter₂]
    exact forall₂_congr fun uri _ => by rw [extension_ofUri, extension]

end ClassExpression

/-! ## Conjunctions of datatypes -/

namespace DataRange

/-- The datatypes that a range lists. -/
def datatypes : DataRange → List Uri
  | datatype uri => [uri]
  | intersection datatypes => datatypes

/-- A range is the conjunction of the datatypes with some identifiers. -/
structure Conjoins (range : DataRange) (uris : Set Uri) : Prop where
  isTop : range.isTop = true ↔ ∀ uri ∈ uris, uri = Vocabulary.rdfsLiteral
  /-- Each datatype is listed once, in order. -/
  strict : Ascending.Strict range.datatypes
  lists : range.isTop = false → ∀ uri, uri ∈ range.datatypes ↔ uri ∈ uris

theorem intersectionOf_congr {l m : List Uri} (same : ∀ uri, uri ∈ l ↔ uri ∈ m) :
    intersectionOf l = intersectionOf m := by
  rw [intersectionOf, intersectionOf, Ascending.ofList_congr same]

/-- A range is the datatype of all literals if there is no datatype, and else it lists all of them. -/
theorem intersectionOf_cases (l : List Uri) :
    l = [] ∧ intersectionOf l = datatype Vocabulary.rdfsLiteral ∨
      l ≠ [] ∧ (intersectionOf l).datatypes = Ascending.ofList l := by
  have member : ∀ uri, uri ∈ Ascending.ofList l ↔ uri ∈ l := fun _ => Ascending.mem_ofList
  unfold intersectionOf
  split
  · next none =>
      rw [none] at member
      exact .inl ⟨List.eq_nil_iff_forall_not_mem.2 fun uri hu => absurd ((member uri).2 hu) (by simp), rfl⟩
  · next uri single => exact .inr ⟨List.ne_nil_of_mem ((member uri).1 (by simp [single])), single.symm⟩
  · next set some _ =>
      refine .inr ⟨?_, rfl⟩
      rintro rfl
      exact some rfl

theorem intersectionOf_eq_datatype {l : List Uri} {uri : Uri} (some : l ≠ []) :
    intersectionOf l = datatype uri ↔ ∀ other ∈ l, other = uri := by
  constructor
  · intro single
    rcases intersectionOf_cases l with ⟨none, -⟩ | ⟨-, listed⟩
    · exact absurd none some
    · rw [single] at listed
      exact (Ascending.ofList_eq_singleton.1 listed.symm).2
  · intro all
    rw [intersectionOf, Ascending.ofList_eq_singleton.2 ⟨some, all⟩]

theorem conjoins_intersectionOf (uris : List Uri) :
    (intersectionOf uris).Conjoins {uri | uri ∈ uris} := by
  rcases intersectionOf_cases uris with ⟨rfl, top⟩ | ⟨some, listed⟩
  · rw [top]
    exact ⟨by simp [isTop], List.pairwise_singleton _ _, by simp [isTop]⟩
  · constructor
    case isTop =>
      rw [isTop, decide_eq_true_iff]
      exact intersectionOf_eq_datatype some
    case strict =>
      rw [listed]
      exact .ofList uris
    case lists =>
      intro _ uri
      rw [listed, Ascending.mem_ofList]
      rfl

end DataRange

/-! ## Questions and replies -/

/-- The questions about the classes that are declared for a property. -/
inductive Question.AsksClasses : Question → Prop where
  | objectDomain (property : Uri) : AsksClasses (.objectPropertyDomain property)
  | objectRange (property : Uri) : AsksClasses (.objectPropertyRange property)
  | dataDomain (property : Uri) : AsksClasses (.dataPropertyDomain property)

namespace Reasoner

variable {σ : Type}

/-- A question is asked, and the store replies to it with rows each of which carries an identifier; together
they carry just the given ones. -/
structure Lists (r : Reasoner) (store : GraphStore σ) (c : Connection σ) (question : Question)
    (uris : Set Uri) (statement : Statement) (rows : List Row) : Prop where
  asked : (r.plan question).statement? = some statement
  replied : store.Replies c.state statement rows
  complete : ∀ row ∈ rows, ∃ uri, row.Carries r.schema Column.uri uri
  carried : ∀ uri, uri ∈ uris ↔ ∃ row ∈ rows, row.Carries r.schema Column.uri uri

variable {r : Reasoner} {store : GraphStore σ} {c : Connection σ} {question : Question} {uris : Set Uri}
  {statement : Statement} {rows : List Row}

/-- The identifiers that are listed are found in the rows. -/
theorem Lists.found (h : r.Lists store c question uris statement rows) :
    ∃ found, Row.uris r.schema rows Column.uri = .ok found ∧ ∀ uri, uri ∈ found ↔ uri ∈ uris := by
  obtain ⟨found, read⟩ := Row.exists_uris_iff.2 fun row hr => by
    obtain ⟨uri, carried⟩ := h.complete row hr
    exact ⟨uri, Row.uri_eq_ok.2 carried⟩
  refine ⟨found, read, fun uri => ?_⟩
  simp only [Row.uris_eq_ok read, Row.uri_eq_ok, h.carried]

/-- Rows that are read list what is found in them. -/
theorem Lists.of_found {found : List Uri} (asked : (r.plan question).statement? = some statement)
    (replied : store.Replies c.state statement rows)
    (read : Row.uris r.schema rows Column.uri = .ok found) :
    r.Lists store c question {uri | uri ∈ found} statement rows where
  asked := asked
  replied := replied
  complete row hr := by
    obtain ⟨uri, carried⟩ := Row.exists_uris_iff.1 ⟨found, read⟩ row hr
    exact ⟨uri, Row.uri_eq_ok.1 carried⟩
  carried uri := by
    show uri ∈ found ↔ _
    simp only [Row.uris_eq_ok read, Row.uri_eq_ok]

/-- What is made of the identifiers that a question lists is made of those that the rows carry. -/
theorem Lists.answer {make : List Uri → Answer}
    (reads : (r.plan question).Reads fun rows => (Row.uris r.schema rows Column.uri).map make)
    (h : r.Lists store c question uris statement rows) :
    ∃ found, (r.answer store question c).1 = .ok (make found) ∧
      ∀ uri, uri ∈ found ↔ uri ∈ uris := by
  obtain ⟨found, read, same⟩ := h.found
  refine ⟨found, ?_, same⟩
  rw [Reasoner.answer, reads.run h.asked h.replied, read]
  rfl

theorem reads_listFor (r : Reasoner) (query : CatalogQuery) (uri : Uri) :
    (r.listFor query uri).Reads fun rows => Row.uris r.schema rows Column.uri :=
  .askText _ _

theorem reads_classes (r : Reasoner) (h : question.AsksClasses) :
    (r.plan question).Reads fun rows => (Row.uris r.schema rows Column.uri).map fun uris =>
      .expression (ClassExpression.intersectionOf (uris.map ClassExpression.ofUri)) := by
  have conjunction : ∀ query uri, ((r.conjunction query uri).map Answer.expression).Reads fun rows =>
      (Row.uris r.schema rows Column.uri).map fun uris =>
        .expression (ClassExpression.intersectionOf (uris.map ClassExpression.ofUri)) := by
    intro query uri statement asked
    refine (Plan.Reads.map ((r.reads_listFor query uri).map _) _ statement asked).trans ?_
    congr 1
    funext rows
    cases Row.uris r.schema rows Column.uri <;> rfl
  cases h with
  | objectDomain property => exact conjunction .objectPropertyDomain property
  | objectRange property => exact conjunction .objectPropertyRange property
  | dataDomain property => exact conjunction .dataPropertyDomain property

theorem reads_datatypes (r : Reasoner) (property : Uri) :
    (r.plan (.dataPropertyRange property)).Reads fun rows =>
      (Row.uris r.schema rows Column.uri).map fun uris => .range (DataRange.intersectionOf uris) :=
  (r.reads_listFor .dataPropertyRange property).map _

/-- The answers to questions about domains and ranges depend on nothing but the set of identifiers that the
rows carry, whatever the reasoner, the store and the question are, and mean the conjunction of all that is
declared. -/
theorem declarations_conjoined (uris : Set Uri) :
    (∃ e : ClassExpression, ∀ (r : Reasoner) {σ : Type} (store : GraphStore σ) c question statement rows,
      question.AsksClasses → r.Lists store c question uris statement rows →
        (r.answer store question c).1 = .ok (.expression e) ∧ e.Conjoins uris) ∧
    ∃ range : DataRange, ∀ (r : Reasoner) {σ : Type} (store : GraphStore σ) c property statement rows,
      r.Lists store c (.dataPropertyRange property) uris statement rows →
        (r.answer store (.dataPropertyRange property) c).1 = .ok (.range range) ∧
          range.Conjoins uris := by
  by_cases listable : ∃ known : List Uri, {uri | uri ∈ known} = uris
  · obtain ⟨known, rfl⟩ := listable
    refine ⟨⟨ClassExpression.intersectionOf (known.map ClassExpression.ofUri), ?_⟩,
      DataRange.intersectionOf known, ?_⟩
    · intro r σ store c question statement rows asks lists
      obtain ⟨found, answered, same⟩ := lists.answer (r.reads_classes asks)
      rw [answered, ClassExpression.intersectionOf_congr (ClassExpression.mem_map_congr _ same)]
      exact ⟨rfl, ClassExpression.conjoins_intersectionOf known⟩
    · intro r σ store c property statement rows lists
      obtain ⟨found, answered, same⟩ := lists.answer (r.reads_datatypes property)
      rw [answered, DataRange.intersectionOf_congr same]
      exact ⟨rfl, DataRange.conjoins_intersectionOf known⟩
  · -- Rows are finitely many, so they carry a set that can be listed.
    have unlisted : ∀ (r : Reasoner) {σ : Type} (store : GraphStore σ) c question statement rows,
        ¬ r.Lists store c question uris statement rows := by
      intro r σ store c question statement rows lists
      obtain ⟨found, -, same⟩ := lists.found
      exact listable ⟨found, Set.ext same⟩
    exact ⟨⟨.thing, fun r _ store c question statement rows _ lists =>
        absurd lists (unlisted r store c question statement rows)⟩,
      .datatype "", fun r _ store c property statement rows lists =>
        absurd lists (unlisted r store c _ statement rows)⟩

/-- Rows that declare the top class, a node and one more class twice. -/
def declaredRows : List Row :=
  [⟨[(Column.uri, .string "B")]⟩, ⟨[(Column.uri, .string Vocabulary.owlThing)]⟩,
    ⟨[(Column.uri, .node [] [("uri", .string "A")])]⟩, ⟨[(Column.uri, .string "B")]⟩]

theorem declarations_conjoined_threeClasses :
    ∃ e range,
      ((ofConfig {}).answer Script.store (.objectPropertyDomain "p") (replying declaredRows)).1 =
        .ok (.expression e) ∧
      ((ofConfig {}).answer Script.store (.dataPropertyDomain "q") (replying declaredRows.reverse)).1 =
        .ok (.expression e) ∧
      e = .intersection [.thing, .named "A", .named "B"] ∧
      e.Conjoins {uri | uri ∈ ["A", "B", Vocabulary.owlThing]} ∧
      ((ofConfig {}).answer Script.store (.dataPropertyRange "q") (replying declaredRows)).1 =
        .ok (.range range) ∧
      range.Conjoins {uri | uri ∈ ["A", "B", Vocabulary.owlThing]} := by
  obtain ⟨⟨e, classes⟩, range, datatypes⟩ :=
    declarations_conjoined {uri | uri ∈ ["A", "B", Vocabulary.owlThing]}
  have replied := replying_replies declaredRows
  obtain ⟨domain, conjoins⟩ := classes (ofConfig {}) Script.store _ _ _ declaredRows
    (.objectDomain "p") (.of_found rfl (replied _) rfl)
  obtain ⟨reversed, -⟩ := classes (ofConfig {}) Script.store _ _ _ declaredRows.reverse
    (.dataDomain "q") (.of_found rfl (replying_replies _ _) rfl)
  obtain ⟨answered, lists⟩ := datatypes (ofConfig {}) Script.store _ "q" _ declaredRows
    (.of_found rfl (replied _) rfl)
  refine ⟨e, range, domain, reversed, ?_, conjoins, answered, lists⟩
  have computed : ((ofConfig {}).answer Script.store (.objectPropertyDomain "p")
      (replying declaredRows)).1 = .ok (.expression (.intersection [.thing, .named "A", .named "B"])) :=
    rfl
  rw [computed] at domain
  cases domain
  rfl

end Reasoner

end Ontograph
