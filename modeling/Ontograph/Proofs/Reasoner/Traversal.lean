import Mathlib.Logic.Relation
import Mathlib.Data.Fintype.EquivFin
import Mathlib.Order.WellFounded
import Ontograph.Proofs.Reasoner.Hierarchy

/-!
# Walking down the class hierarchy

Asked for the classes below the top class, and then for those below each class that was found, a reasoner
walks down the hierarchy (`Reached`).  A walk finds no class all of whose edges lead to nodes that are no
classes and not the top class: it has edges, so it is no root, and nothing that could list it is ever found.

If there is no such class, the walk finds every class.  The edges lead to no cycle, so going up from a class
ends at a root, and the walk comes down the same way.

Main statement: `Reasoner.walk_reaches_classes`.
-/

namespace Ontograph

/-! ## Hierarchies without cycles -/

namespace Database

variable (D : Database)

/-- Going up subclass-of edges never leads back. -/
def Acyclic : Prop :=
  ∀ x, ¬ Relation.TransGen D.Below x x

/-- Every class has an identifier of its own, which is not that of the top or the bottom class. -/
structure ClassesIdentified : Prop where
  proper : ∀ x ∈ D.classNodes, ∃ uri ∈ D.identity? x,
    uri ≠ Vocabulary.owlThing ∧ uri ≠ Vocabulary.owlNothing
  distinct : ∀ x ∈ D.classNodes, ∀ y ∈ D.classNodes, D.identity? x = D.identity? y → x = y

/-- A class with edges has one to another class or to the top class. -/
def Connected : Prop :=
  ∀ x ∈ D.classNodes, (∃ y, D.Below x y) →
    ∃ y, D.Below x y ∧ (y ∈ D.classNodes ∨ y ∈ D.identified Vocabulary.owlThing)

variable {D}

/-- If going up always leads to nodes with higher numbers, it never leads back. -/
theorem Acyclic.of_lt (up : ∀ x y, D.Below x y → x < y) : D.Acyclic := by
  have higher : ∀ {x y}, Relation.TransGen D.Below x y → x < y := by
    intro x y path
    induction path with
    | single edge => exact up _ _ edge
    | tail _ edge ih => exact ih.trans (up _ _ edge)
  exact fun x cycle => lt_irrefl x (higher cycle)

/-- In a graph, which is finite, going up ends. -/
theorem Acyclic.wellFounded (acyclic : D.Acyclic) : WellFounded (flip D.Below) := by
  have up : WellFounded (Relation.TransGen (flip D.Below)) := by
    have : IsTrans D.Vertex (Relation.TransGen (flip D.Below)) := ⟨fun _ _ _ => .trans⟩
    have : Std.Irrefl (Relation.TransGen (flip D.Below)) :=
      ⟨fun x cycle => acyclic x (Relation.transGen_swap.1 cycle)⟩
    exact Finite.wellFounded_of_trans_of_irrefl _
  exact Subrelation.wf Relation.TransGen.single up

namespace ClassesIdentified

variable {x : D.Vertex} {uri : Uri}

theorem isSome (identified : D.ClassesIdentified) (hx : x ∈ D.classNodes) :
    (D.identity? x).isSome := by
  obtain ⟨uri, own, _⟩ := identified.proper x hx
  exact Option.isSome_of_eq_some own

theorem proper_uri (identified : D.ClassesIdentified) (hx : x ∈ D.classNodes)
    (own : D.identity? x = some uri) :
    uri ≠ Vocabulary.owlThing ∧ uri ≠ Vocabulary.owlNothing := by
  obtain ⟨same, held, proper⟩ := identified.proper x hx
  obtain rfl := Option.some.inj (own.symm.trans held)
  exact proper

end ClassesIdentified

end Database

/-! ## Walks -/

/-- The classes that are found by asking for the classes below the top class, and then for those below
each class that was found. -/
inductive Reached (ask : ClassExpression → Except Failure Answer) : Uri → Prop where
  | root {found : List Uri} {uri : Uri} (asked : ask .thing = .ok (.uris found)) (mem : uri ∈ found) :
      Reached ask uri
  | step {upper : Uri} {found : List Uri} {uri : Uri} (reached : Reached ask upper)
      (asked : ask (.ofUri upper) = .ok (.uris found)) (mem : uri ∈ found) : Reached ask uri

namespace Database

/-- The questions for the classes below a class are answered from the graph. -/
structure Answers (D : Database) (ask : ClassExpression → Except Failure Answer) : Prop where
  roots : D.Shows (ask .thing) D.rootClasses
  below : ∀ uri, uri ≠ Vocabulary.owlThing ∧ uri ≠ Vocabulary.owlNothing →
    D.Shows (ask (.ofUri uri)) (D.classesBelow uri)

namespace Answers

variable {D : Database} {ask : ClassExpression → Except Failure Answer} {x : D.Vertex} {uri : Uri}

/-- The roots are found. -/
theorem reached_root (answers : D.Answers ask) (hx : x ∈ D.rootClasses)
    (own : D.identity? x = some uri) : Reached ask uri := by
  obtain ⟨found, asked, names⟩ := answers.roots
  exact .root asked ((names uri).2 ⟨x, hx, own⟩)

/-- What is below a class that is found is found. -/
theorem reached_below (answers : D.Answers ask) {upper : Uri} (reached : Reached ask upper)
    (proper : upper ≠ Vocabulary.owlThing ∧ upper ≠ Vocabulary.owlNothing)
    (hx : x ∈ D.classesBelow upper) (own : D.identity? x = some uri) : Reached ask uri := by
  obtain ⟨found, asked, names⟩ := answers.below upper proper
  exact .step reached asked ((names uri).2 ⟨x, hx, own⟩)

/-- What is found is a root or below a class. -/
theorem cases_of_reached (answers : D.Answers ask) (identified : D.ClassesIdentified)
    (reached : Reached ask uri) :
    ∃ x ∈ D.classNodes, D.identity? x = some uri ∧
      (x ∈ D.rootClasses ∨ ∃ z ∈ D.classNodes, ∃ y, D.Below x y ∧ D.identity? z = D.identity? y) := by
  induction reached with
  | root asked mem =>
      obtain ⟨found, answered, names⟩ := answers.roots
      cases asked.symm.trans answered
      obtain ⟨x, hx, own⟩ := (names _).1 mem
      exact ⟨x, hx.1, own, .inl hx⟩
  | step _ asked mem ih =>
      -- The answer is known because what was asked about is a class itself.
      obtain ⟨z, hz, named, _⟩ := ih
      obtain ⟨found, answered, names⟩ := answers.below _ (identified.proper_uri hz named)
      cases asked.symm.trans answered
      obtain ⟨x, ⟨hx, y, hy, edge⟩, own⟩ := (names _).1 mem
      exact ⟨x, hx, own, .inr ⟨z, hz, y, edge, named.trans (mem_identified.1 hy).symm⟩⟩

/-- In a connected hierarchy without cycles, every class is found. -/
theorem reached_of_connected (answers : D.Answers ask) (identified : D.ClassesIdentified)
    (acyclic : D.Acyclic) (connected : D.Connected) (hx : x ∈ D.classNodes)
    (own : D.identity? x = some uri) : Reached ask uri := by
  induction x using acyclic.wellFounded.induction generalizing uri with
  | _ x ih =>
      by_cases up : ∃ y, D.Below x y
      · obtain ⟨y, edge, isClass | isTop⟩ := connected x hx up
        · obtain ⟨upper, named, proper⟩ := identified.proper y isClass
          have reached := ih y edge isClass named
          exact answers.reached_below reached proper ⟨hx, y, mem_identified.2 named, edge⟩ own
        · exact answers.reached_root ⟨hx, .inl ⟨y, isTop, edge⟩⟩ own
      · exact answers.reached_root ⟨hx, .inr (not_exists.1 up)⟩ own

/-- A class is found only if it has no edges, or one to a node with the identifier of a class or of the top
class. -/
theorem edge_of_reached (answers : D.Answers ask) (identified : D.ClassesIdentified)
    (hx : x ∈ D.classNodes) (own : D.identity? x = some uri) (reached : Reached ask uri)
    (up : ∃ y, D.Below x y) :
    ∃ y, D.Below x y ∧ ((∃ z ∈ D.classNodes, D.identity? z = D.identity? y) ∨
      y ∈ D.identified Vocabulary.owlThing) := by
  obtain ⟨same, isClass, named, found⟩ := answers.cases_of_reached identified reached
  obtain rfl := identified.distinct same isClass x hx (named.trans own.symm)
  rcases found with ⟨_, ⟨y, isTop, edge⟩ | none⟩ | ⟨z, hz, y, edge, same⟩
  · exact ⟨y, edge, .inr isTop⟩
  · obtain ⟨y, edge⟩ := up
    exact absurd edge (none y)
  · exact ⟨y, edge, .inl ⟨z, hz, same⟩⟩

end Answers

end Database

/-! ## Walks of a reasoner -/

namespace Reasoner

variable {σ : Type} {D : Database} {config : Config} {store : GraphStore σ}

/-- The answers about the classes below a class, each over a connection of its own. -/
def below (config : Config) (store : GraphStore σ) (connection : ClassExpression → Connection σ)
    (e : ClassExpression) : Except Failure Answer :=
  ((ofConfig config).answer store (.subClasses e) (connection e)).1

/-- A store that serves the graph makes a reasoner answer from it. -/
theorem answers_below (schema : config.schema = D.schema) (roots : store.Serves D .rootClasses)
    (subs : store.Serves D .subClasses) (identified : D.ClassesIdentified)
    (connection : ClassExpression → Connection σ) : D.Answers (below config store connection) where
  roots := shows_rootClasses schema roots rfl (fun _ hx => identified.isSome hx.1) _
  below uri proper := by
    have same : ClassExpression.ofUri uri = .named uri := (if_neg proper.1).trans (if_neg proper.2)
    rw [same]
    exact shows_subClasses schema subs (normalized_named proper) proper
      (fun _ hx => identified.isSome hx.1) _

/-- A walk down a hierarchy without cycles, whose classes have identifiers of their own, finds every class
if each class with edges has one to a class or to the top class.  It finds no class with edges all of which
lead to nodes without the identifier of a class or of the top class.  No question of the walk fails. -/
theorem walk_reaches_classes (schema : config.schema = D.schema)
    (roots : store.Serves D .rootClasses) (subs : store.Serves D .subClasses)
    (acyclic : D.Acyclic) (identified : D.ClassesIdentified)
    (connection : ClassExpression → Connection σ) :
    (D.Connected → ∀ x ∈ D.classNodes, ∃ uri, D.identity? x = some uri ∧
      Reached (below config store connection) uri) ∧
    (∀ x ∈ D.classNodes, ∀ uri, D.identity? x = some uri → (∃ y, D.Below x y) →
      (∀ y, D.Below x y → y ∉ D.identified Vocabulary.owlThing ∧
        ∀ z ∈ D.classNodes, D.identity? z ≠ D.identity? y) →
      ¬ Reached (below config store connection) uri) ∧
    ∀ uri, uri = Vocabulary.owlThing ∨ Reached (below config store connection) uri →
      ∃ found, below config store connection (.ofUri uri) = .ok (.uris found) := by
  have answers := answers_below schema roots subs identified connection
  refine ⟨fun connected x hx => ?_, fun x hx uri own up apart reached => ?_, fun uri asked => ?_⟩
  · obtain ⟨uri, own, _⟩ := identified.proper x hx
    exact ⟨uri, own, answers.reached_of_connected identified acyclic connected hx own⟩
  · obtain ⟨y, edge, ⟨z, hz, same⟩ | isTop⟩ := answers.edge_of_reached identified hx own reached up
    · exact (apart y edge).2 z hz same
    · exact (apart y edge).1 isTop
  · rcases asked with rfl | reached
    · obtain ⟨found, answered, _⟩ := answers.roots
      exact ⟨found, answered⟩
    · obtain ⟨x, hx, own, _⟩ := answers.cases_of_reached identified reached
      obtain ⟨found, answered, _⟩ := answers.below uri (identified.proper_uri hx own)
      exact ⟨found, answered⟩

theorem walk_reaches_declared :
    Database.declaredAbove.Acyclic ∧ Database.declaredAbove.ClassesIdentified ∧
      Database.declaredAbove.Connected ∧
      ∀ x ∈ Database.declaredAbove.classNodes, ∃ uri, Database.declaredAbove.identity? x = some uri ∧
        Reached (below {} Database.declaredAbove.store fun _ => ⟨(), .empty⟩) uri := by
  have serves := Database.store_serves (D := .declaredAbove) Schema.separatesListings_default
  have schema : ({} : Config).schema = Database.declaredAbove.schema := rfl
  have acyclic : Database.declaredAbove.Acyclic := .of_lt (by decide)
  have identified : Database.declaredAbove.ClassesIdentified := ⟨by decide, by decide⟩
  have connected : Database.declaredAbove.Connected := by
    unfold Database.Connected
    decide
  exact ⟨acyclic, identified, connected,
    (walk_reaches_classes schema (serves _) (serves _) acyclic identified fun _ => ⟨(), .empty⟩).1
      connected⟩

/-- A class below a node that is no class is not found. -/
theorem walk_misses_class :
    (∀ query, Database.undeclaredAbove.store.Serves .undeclaredAbove query) ∧
      Database.undeclaredAbove.Acyclic ∧ Database.undeclaredAbove.ClassesIdentified ∧
      Database.underUndeclared ∈ Database.undeclaredAbove.classNodes ∧
      Database.undeclaredAbove.identity? Database.underUndeclared = some "A" ∧
      ¬ Reached (below {} Database.undeclaredAbove.store fun _ => ⟨(), .empty⟩) "A" := by
  have serves := Database.store_serves (D := .undeclaredAbove) Schema.separatesListings_default
  have identified : Database.undeclaredAbove.ClassesIdentified := ⟨by decide, by decide⟩
  refine ⟨serves, .of_lt (by decide), identified, by decide, by decide, fun reached => ?_⟩
  have schema : ({} : Config).schema = Database.undeclaredAbove.schema := rfl
  have answers := answers_below schema (serves _) (serves _) identified fun _ => ⟨(), .empty⟩
  obtain ⟨y, edge, known⟩ := answers.edge_of_reached identified (x := Database.underUndeclared)
    (by decide) (by decide) reached (by decide)
  revert y
  decide

end Reasoner

end Ontograph
