import Ontograph.Proofs.Ontology.Encoding
import Ontograph.Proofs.Ontology.LiteralOrder
import Ontograph.Proofs.Query.Simulation
import Ontograph.Query.Compiler

/-!
# Operands as sets

The comparisons of literals and of expressions are linear orders in which only equal values compare as
equal (`LinearOrd`).  A set that is kept as an ascending list therefore has its elements and nothing else
to it: lists of operands with the same elements give the same conjunction and the same disjunction, in
whatever order and however often they name them.

The same holds of operands that come as a JSON array, whether they are read or the reading fails, and of
the query text or the failure that an expression is compiled to.

Main statement: `ClassExpression.ordered_operand_sets`.
-/

namespace Ontograph

/-- A comparison that is a linear order, in which only equal values compare as equal. -/
structure LinearOrd (α : Type) [Ord α] : Prop where
  total : ∀ a b : α, (compare a b).isLE ∨ (compare b a).isLE
  trans : ∀ a b c : α, (compare a b).isLE → (compare b c).isLE → (compare a c).isLE
  swap : ∀ a b : α, compare b a = (compare a b).swap
  equal : ∀ a b : α, compare a b = .eq ↔ a = b

theorem LinearOrd.of_lawful {α : Type} [Ord α] [Std.TransOrd α] [Std.LawfulEqOrd α] :
    LinearOrd α where
  total a b := by
    rw [Std.OrientedOrd.eq_swap (a := b)]
    cases compare a b <;> decide
  trans _ _ _ := Std.TransOrd.isLE_trans
  swap _ _ := Std.OrientedOrd.eq_swap
  equal _ _ := Std.LawfulEqOrd.compare_eq_iff_eq

namespace ClassExpression

/-! ## Order -/

/-- Sets of operands are compared from left to right. -/
theorem cmpList_eq_compare (l m : List ClassExpression) : cmpList l m = compare l m := by
  induction l generalizing m with
  | nil => cases m <;> rfl
  | cons a l ih =>
      cases m with
      | nil => rfl
      | cons b m =>
          rw [cmpList, ih]
          exact List.compareLex_cons_cons.symm

/-- Parts are compared by their own order, and kinds by their places. -/
structure OrderedByParts : Prop where
  intersections : ∀ l m, compare (intersection l) (intersection m) = compare l m
  unions : ∀ l m, compare (union l) (union m) = compare l m
  complements : ∀ a b, compare (complement a) (complement b) = compare a b
  somes : ∀ p q a b, compare (objectSome p a) (objectSome q b) = (compare p q).then (compare a b)
  alls : ∀ p q a b, compare (objectAll p a) (objectAll q b) = (compare p q).then (compare a b)
  cardinalities : ∀ r s m n p q a b,
    compare (objectCardinality r m p a) (objectCardinality s n q b) =
      (compare r.index s.index).then ((compare m n).then ((compare p q).then (compare a b)))
  kinds : ∀ a b : ClassExpression, a.index ≠ b.index → compare a b = compare a.index b.index

theorem ordered_by_parts : OrderedByParts where
  intersections := cmpList_eq_compare
  unions := cmpList_eq_compare
  complements _ _ := rfl
  somes _ _ _ _ := rfl
  alls _ _ _ _ := rfl
  cardinalities _ _ _ _ _ _ _ _ := rfl
  kinds a b other := by cases a <;> cases b <;> first | rfl | exact absurd rfl other

/-! ## Sets -/

variable {l m : List ClassExpression}

theorem intersectionOf_congr (same : ∀ e, e ∈ l ↔ e ∈ m) : intersectionOf l = intersectionOf m := by
  rw [intersectionOf, intersectionOf, Ascending.ofList_congr same]

theorem unionOf_congr (same : ∀ e, e ∈ l ↔ e ∈ m) : unionOf l = unionOf m := by
  rw [unionOf, unionOf, Ascending.ofList_congr same]

theorem mem_map_congr {α β : Type} {l m : List α} (f : α → β) (same : ∀ a, a ∈ l ↔ a ∈ m)
    (b : β) : b ∈ l.map f ↔ b ∈ m.map f := by
  simp only [List.mem_map, same]

/-! ## Arrays -/

/-- Arrays with the same elements are read as the same set, or both of them are not read. -/
theorem operands?_congr (decode? : Json → Option ClassExpression) {items others : List Json}
    (same : ∀ v, v ∈ items ↔ v ∈ others) :
    operands? decode? (.array items) = operands? decode? (.array others) := by
  have read : ∀ {items others : List Json}, (∀ v, v ∈ items ↔ v ∈ others) → ∀ {l},
      items.mapM decode? = some l →
        operands? decode? (.array items) = operands? decode? (.array others) := by
    intro items others same l hl
    obtain ⟨m, hm, part⟩ := exists_mapM_of_subset hl fun v => (same v).2
    obtain ⟨l', hl', part'⟩ := exists_mapM_of_subset hm fun v => (same v).1
    cases hl.symm.trans hl'
    rw [operands?, operands?, hl, hm]
    exact congrArg some (Ascending.ofList_congr fun e => ⟨part' e, part e⟩)
  cases h : items.mapM decode? with
  | some l => exact read same h
  | none =>
      cases h' : others.mapM decode? with
      | some m => exact (read (fun v => (same v).symm) h').symm
      | none => rw [operands?, operands?, h, h']

/-- The kinds of expressions whose content is an array of operands. -/
def operandKinds : List String :=
  ["intersection", "union"]

/-- What an array of operands is decoded as depends on the set of these alone. -/
theorem decode?_array_congr {kind : String} (hk : kind ∈ operandKinds) {level : Nat}
    {items others : List Json}
    (same : operands? (decode? level) (.array items) = operands? (decode? level) (.array others)) :
    decode? (level + 2) (.tagged kind (.array items)) =
      decode? (level + 2) (.tagged kind (.array others)) := by
  simp only [operandKinds, List.mem_cons, List.not_mem_nil, or_false] at hk
  rcases hk with rfl | rfl
  · exact congrArg (Option.map intersection) same
  · exact congrArg (Option.map union) same

/-- Arrays with the same elements are decoded alike. -/
theorem decode?_array_of_same {kind : String} (hk : kind ∈ operandKinds) (level : Nat)
    {items others : List Json} (same : ∀ v, v ∈ items ↔ v ∈ others) :
    decode? level (.tagged kind (.array items)) = decode? level (.tagged kind (.array others)) := by
  match level with
  | level + 2 => exact decode?_array_congr hk (operands?_congr _ same)
  | 0 => rfl
  | 1 =>
      simp only [operandKinds, List.mem_cons, List.not_mem_nil, or_false] at hk
      rcases hk with rfl | rfl <;> rfl

/-- An array of expressions in a text is read as it was written. -/
theorem decodeText?_array (kind : String) (l : List ClassExpression) :
    Json.decodeText? decode? (Json.compact (.tagged kind (.array (l.map toJson)))) =
      decode? Json.textLevels (.tagged kind (.array (l.map toJson))) := by
  have writable : (Json.tagged kind (.array (l.map toJson))).Writable :=
    .tagged _ (.array (List.forall_mem_map.2 fun e _ => writable_toJson e))
  rw [Json.decodeText?, Json.parse?_compact writable, Option.bind_some]

/-! ## Compiling -/

/-- What an expression is compiled to depends on its normal form alone. -/
theorem text_congr (compiler : Compiler) {e f : ClassExpression} (same : e.normalized = f.normalized)
    (target : Option String) : compiler.text e target = compiler.text f target := by
  rw [Compiler.text, Compiler.text, Compiler.pattern, Compiler.pattern, toPattern_eq, toPattern_eq, same]

theorem normalized_intersection_congr (same : ∀ e, e ∈ l ↔ e ∈ m) :
    (intersection l).normalized = (intersection m).normalized := by
  rw [normalized, normalized, normalizedList_eq_map, normalizedList_eq_map]
  exact intersectionOf_congr (mem_map_congr normalized same)

theorem normalized_union_congr (same : ∀ e, e ∈ l ↔ e ∈ m) :
    (union l).normalized = (union m).normalized := by
  rw [normalized, normalized, normalizedList_eq_map, normalizedList_eq_map]
  exact unionOf_congr (mem_map_congr normalized same)

/-- What is the same for lists of operands with the same elements. -/
structure SameOperands (l m : List ClassExpression) : Prop where
  intersections : intersectionOf l = intersectionOf m
  unions : unionOf l = unionOf m
  /-- Arrays of the operands are decoded alike, at any level and as a text. -/
  decoded : ∀ kind ∈ operandKinds, ∀ level,
    decode? level (.tagged kind (.array (l.map toJson))) =
      decode? level (.tagged kind (.array (m.map toJson)))
  texts : ∀ kind ∈ operandKinds,
    Json.decodeText? decode? (Json.compact (.tagged kind (.array (l.map toJson)))) =
      Json.decodeText? decode? (Json.compact (.tagged kind (.array (m.map toJson))))
  /-- So are arrays in which the operands are spelled otherwise. -/
  spelled : ∀ kind ∈ operandKinds, ∀ level (items others : List Json),
    items.mapM (decode? level) = some l → others.mapM (decode? level) = some m →
      decode? (level + 2) (.tagged kind (.array items)) =
        decode? (level + 2) (.tagged kind (.array others))
  /-- The operands are compiled to the same text, or with the same failure. -/
  compiled : ∀ (compiler : Compiler) target,
    compiler.text (intersectionOf l) target = compiler.text (intersectionOf m) target ∧
      compiler.text (unionOf l) target = compiler.text (unionOf m) target
  sets : ∀ (compiler : Compiler) target,
    compiler.text (intersection l) target = compiler.text (intersection m) target ∧
      compiler.text (union l) target = compiler.text (union m) target

theorem SameOperands.of_same (same : ∀ e, e ∈ l ↔ e ∈ m) : SameOperands l m where
  intersections := intersectionOf_congr same
  unions := unionOf_congr same
  decoded _ hk level := decode?_array_of_same hk level (mem_map_congr toJson same)
  texts _ hk := by
    rw [decodeText?_array, decodeText?_array]
    exact decode?_array_of_same hk _ (mem_map_congr toJson same)
  spelled _ hk level items others hl hm := by
    refine decode?_array_congr hk ?_
    rw [operands?, operands?, hl, hm]
    exact congrArg some (Ascending.ofList_congr same)
  compiled compiler target := by
    rw [intersectionOf_congr same, unionOf_congr same]
    exact ⟨rfl, rfl⟩
  sets compiler target :=
    ⟨text_congr compiler (normalized_intersection_congr same) target,
      text_congr compiler (normalized_union_congr same) target⟩

/-- Literals and expressions are linearly ordered, literals are equal if they are hashed alike, and operands
are sets. -/
theorem ordered_operand_sets :
    LinearOrd Literal ∧ Literal.OrderedByValue ∧ (∀ a b : Literal, a.hashData = b.hashData ↔ a = b) ∧
      LinearOrd ClassExpression ∧ OrderedByParts ∧
      ∀ l m : List ClassExpression, (∀ e, e ∈ l ↔ e ∈ m) → SameOperands l m :=
  ⟨.of_lawful, Literal.ordered_by_value, fun _ _ => Literal.hashData_inj, .of_lawful, ordered_by_parts,
    fun _ _ => .of_same⟩

theorem ordered_operand_sets_pair :
    (∀ e, e ∈ [named "B", thing, named "A", named "B"] ↔ e ∈ [named "A", named "B", thing]) ∧
      SameOperands [named "B", thing, named "A", named "B"] [named "A", named "B", thing] ∧
      intersectionOf [named "B", thing, named "A", named "B"] =
        intersection [thing, named "A", named "B"] := by
  have same : ∀ e, e ∈ [named "B", thing, named "A", named "B"] ↔
      e ∈ [named "A", named "B", thing] := by
    intro e
    simp only [List.mem_cons, List.not_mem_nil, or_false]
    tauto
  obtain ⟨-, -, -, -, -, operands⟩ := ordered_operand_sets
  exact ⟨same, operands _ _ same, rfl⟩

end ClassExpression

end Ontograph
