import Ontograph.Ascending
import Ontograph.Ontology.Literal

/-!
# Class expressions

The class expressions of a description logic with nominals and qualified cardinalities.  The operands
of an intersection or a union are a set, kept as a strictly ascending list; `intersectionOf` and
`unionOf` build such sets, and `normalized` rebuilds a whole expression through them.

The order of expressions is the order of their kinds, then of their parts; sets of operands are
compared element by element, and a set that ends earlier comes first.
-/

namespace Ontograph

/-- How a cardinality bounds a number of fillers. -/
inductive Restriction where
  | min
  | max
  | exact
deriving DecidableEq

/-- A class expression. -/
inductive ClassExpression where
  | thing
  | nothing
  | named (uri : Uri)
  | intersection (operands : List ClassExpression)
  | union (operands : List ClassExpression)
  | complement (operand : ClassExpression)
  | objectSome (property : Uri) (filler : ClassExpression)
  | objectAll (property : Uri) (filler : ClassExpression)
  | objectHas (property : Uri) (individual : Uri)
  | objectCardinality (restriction : Restriction) (count : UInt32) (property : Uri)
      (filler : ClassExpression)
  | dataSome (property : Uri)
  | dataHas (property : Uri) (value : Literal)
  | dataAll (property : Uri) (range : Uri)

namespace Restriction

/-- The place of a restriction in the order. -/
def index : Restriction → Nat
  | min => 0
  | max => 1
  | exact => 2

end Restriction

namespace ClassExpression

/-- What holds of an expression if it holds of its parts holds of all expressions. -/
theorem induction {motive : ClassExpression → Prop} (thing : motive thing) (nothing : motive nothing)
    (named : ∀ uri, motive (named uri))
    (intersection : ∀ operands, (∀ e ∈ operands, motive e) → motive (intersection operands))
    (union : ∀ operands, (∀ e ∈ operands, motive e) → motive (union operands))
    (complement : ∀ operand, motive operand → motive (complement operand))
    (objectSome : ∀ property filler, motive filler → motive (objectSome property filler))
    (objectAll : ∀ property filler, motive filler → motive (objectAll property filler))
    (objectHas : ∀ property individual, motive (objectHas property individual))
    (objectCardinality : ∀ restriction count property filler, motive filler →
      motive (objectCardinality restriction count property filler))
    (dataSome : ∀ property, motive (dataSome property))
    (dataHas : ∀ property value, motive (dataHas property value))
    (dataAll : ∀ property range, motive (dataAll property range)) (e : ClassExpression) :
    motive e :=
  e.rec (motive_2 := fun l => ∀ e ∈ l, motive e) thing nothing named intersection union complement
    objectSome objectAll objectHas objectCardinality dataSome dataHas dataAll
    (fun _ h => absurd h List.not_mem_nil)
    (fun _ _ head tail => List.forall_mem_cons.2 ⟨head, tail⟩)

/-! ## Order -/

/-- The place of the kind of an expression in the order. -/
def index : ClassExpression → Nat
  | thing => 0
  | nothing => 1
  | named _ => 2
  | intersection _ => 3
  | union _ => 4
  | complement _ => 5
  | objectSome .. => 6
  | objectAll .. => 7
  | objectHas .. => 8
  | objectCardinality .. => 9
  | dataSome _ => 10
  | dataHas .. => 11
  | dataAll .. => 12

mutual

/-- The order of expressions. -/
def cmp : ClassExpression → ClassExpression → Ordering
  | named a, named b => compare a b
  | intersection as, intersection bs => cmpList as bs
  | union as, union bs => cmpList as bs
  | complement a, complement b => cmp a b
  | objectSome p a, objectSome q b => (compare p q).then (cmp a b)
  | objectAll p a, objectAll q b => (compare p q).then (cmp a b)
  | objectHas p a, objectHas q b => (compare p q).then (compare a b)
  | objectCardinality r m p a, objectCardinality s n q b =>
      (compare r.index s.index).then ((compare m n).then ((compare p q).then (cmp a b)))
  | dataSome p, dataSome q => compare p q
  | dataHas p a, dataHas q b => (compare p q).then (compare a b)
  | dataAll p a, dataAll q b => (compare p q).then (compare a b)
  | a, b => compare a.index b.index

/-- The order of sets of operands. -/
def cmpList : List ClassExpression → List ClassExpression → Ordering
  | [], [] => .eq
  | [], _ :: _ => .lt
  | _ :: _, [] => .gt
  | a :: as, b :: bs => (cmp a b).then (cmpList as bs)

end

instance : Ord ClassExpression := ⟨cmp⟩

/-! ## Constructors -/

/-- The class with an identifier; the identifiers of the top and the bottom class give those. -/
def ofUri (uri : Uri) : ClassExpression :=
  if uri = Vocabulary.owlThing then thing
  else if uri = Vocabulary.owlNothing then nothing
  else named uri

/-- The conjunction of operands: everything if there is none, and a single operand itself. -/
def intersectionOf (operands : List ClassExpression) : ClassExpression :=
  match Ascending.ofList operands with
  | [] => thing
  | [operand] => operand
  | set => intersection set

/-- The disjunction of operands: nothing if there is none, and a single operand itself. -/
def unionOf (operands : List ClassExpression) : ClassExpression :=
  match Ascending.ofList operands with
  | [] => nothing
  | [operand] => operand
  | set => union set

/-! ## Normal form -/

mutual

/-- The expression rebuilt through `ofUri`, `intersectionOf` and `unionOf`. -/
def normalized : ClassExpression → ClassExpression
  | named uri => ofUri uri
  | intersection operands => intersectionOf (normalizedList operands)
  | union operands => unionOf (normalizedList operands)
  | complement operand => complement operand.normalized
  | objectSome property filler => objectSome property filler.normalized
  | objectAll property filler => objectAll property filler.normalized
  | objectCardinality restriction count property filler =>
      objectCardinality restriction count property filler.normalized
  | thing => thing
  | nothing => nothing
  | objectHas property individual => objectHas property individual
  | dataSome property => dataSome property
  | dataHas property value => dataHas property value
  | dataAll property range => dataAll property range

/-- The normal forms of operands. -/
def normalizedList : List ClassExpression → List ClassExpression
  | [] => []
  | operand :: rest => operand.normalized :: normalizedList rest

end

/-! ## Shape -/

mutual

/-- The nesting depth; an expression without parts has depth one. -/
def depth : ClassExpression → Nat
  | intersection operands => 1 + depthList operands
  | union operands => 1 + depthList operands
  | complement operand => 1 + operand.depth
  | objectSome _ filler => 1 + filler.depth
  | objectAll _ filler => 1 + filler.depth
  | objectCardinality _ _ _ filler => 1 + filler.depth
  | _ => 1

/-- The depth of the deepest operand. -/
def depthList : List ClassExpression → Nat
  | [] => 0
  | operand :: rest => max operand.depth (depthList rest)

end

/-- The identifier of a named expression; the top and the bottom class have theirs. -/
def namedUri? : ClassExpression → Option Uri
  | thing => some Vocabulary.owlThing
  | nothing => some Vocabulary.owlNothing
  | named uri => some uri
  | _ => none

/-- Whether an expression is none of the named ones. -/
def isAnonymous (e : ClassExpression) : Bool :=
  e.namedUri?.isNone

/-- Whether an expression is the top class itself. -/
def isThing : ClassExpression → Bool
  | thing => true
  | _ => false

/-- Whether an expression is the bottom class itself. -/
def isNothing : ClassExpression → Bool
  | nothing => true
  | _ => false

end ClassExpression

end Ontograph
