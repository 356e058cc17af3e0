import Ontograph.Proofs.Query.CatalogText
import Ontograph.Proofs.Query.Exactness
import Ontograph.Proofs.Reasoner.Sessions

/-!
# Attribute values

An attribute is read in two ways.  A restriction to a value is compiled to a condition that compares the
attribute with the value as a whole, and the values of an individual are taken out of its node, where a
list counts as its elements.  So what is found by a text is reported of the individual, and what is
reported is found unless it is an element of a list.

The values of a node are a map like its attributes (`Reasoner.strict_nodeValues`), so a key has one set
(`Reasoner.find?_nodeValues`).

Main statement: `Reasoner.values_found_or_listed`.
-/

namespace Ontograph

/-! ## Maps -/

namespace Assoc

variable {κ υ : Type} [Ord κ] [Std.LawfulEqOrd κ] {m : List (κ × υ)}

/-- A map has exactly its entries. -/
theorem Strict.find?_eq_some_iff (h : Strict m) {key : κ} {value : υ} :
    find? key m = some value ↔ (key, value) ∈ m := by
  induction m with
  | nil => simp [find?]
  | cons e rest ih =>
      obtain ⟨k, v⟩ := e
      obtain ⟨first, others⟩ := List.pairwise_cons.1 h
      by_cases same : compare key k = .eq
      · obtain rfl := Std.LawfulEqOrd.eq_of_compare same
        have later : ∀ w, (key, w) ∉ rest := by
          intro w hw
          simpa [Std.ReflCmp.compare_self] using first _ hw
        simp [find?, later, eq_comm, Std.ReflCmp.compare_self]
      · have other : key ≠ k := by
          rintro rfl
          exact same Std.ReflCmp.compare_self
        simp [find?, same, other, ih others]

end Assoc

/-! ## What is found -/

/-- A text literal equals the same text and nothing else. -/
def Database.TextEquality (D : Database) : Prop :=
  ∀ value s, D.equals value (.string s) = true ↔ value = .string s

namespace Compiler

/-- A restriction to a text has a pattern, which matches the nodes whose attribute is that text. -/
theorem pattern_dataHas_text {D : Database} (equality : D.TextEquality) (procedure : String)
    {key name : Uri} (accepted : Query.uriName key = .ok name) (s : String) (target : Option String)
    (form : ∀ name ∈ target, Query.VariableForm name) :
    ∃ q, (⟨D.schema, .direct, procedure⟩ : Compiler).pattern (.dataHas key (.string s)) target = .ok q ∧
      ∀ x, x ∈ q.matched D ↔ (D.graph.node x).property? key = some (.string s) := by
  obtain ⟨q, lowered⟩ := exists_pattern ⟨D.schema, .direct, procedure⟩
    (e := .dataHas key (.string s)) ⟨nofun, nofun⟩ form
    (List.forall_mem_singleton.2 ⟨Query.exists_uriName_iff.1 ⟨name, accepted⟩, trivial⟩)
  refine ⟨q, lowered, fun x => ?_⟩
  rw [Pattern.matched_eq_extension lowered, ClassExpression.extension]
  show (D.graph.node x).attributeIs key (fun value => D.equals value (.string s)) = true ↔ _
  rw [Node.attributeIs, Option.any_eq_true]
  simp [equality _ s]

end Compiler

/-! ## What is reported -/

/-- The scalar that a literal is. -/
def Literal.toValue : Literal → Value
  | integer n => .integer n
  | float x => .float x
  | string s => .string s
  | boolean b => .boolean b

namespace Value

/-- A value has a literal: it is this literal, or a list with this literal among its elements. -/
def HasLiteral (value : Value) (l : Literal) : Prop :=
  value = l.toValue ∨ ∃ items, value = .list items ∧ l.toValue ∈ items

theorem literal?_eq_some {value : Value} {l : Literal} :
    value.literal? = some l ↔ value = l.toValue := by
  cases value <;> cases l <;> simp [literal?, Literal.toValue]

/-- The literals of a value are those that it has. -/
theorem mem_literals {value : Value} {l : Literal} : l ∈ value.literals ↔ value.HasLiteral l := by
  cases value with
  | list items =>
      have other : Value.list items ≠ l.toValue := by cases l <;> nofun
      simp [literals, literal?_eq_some, HasLiteral, other]
  | _ =>
      rw [literals, Option.mem_toList, literal?_eq_some]
      · simp [HasLiteral]
      · nofun

theorem strict_literals (value : Value) : Ascending.Strict value.literals := by
  cases value with
  | list items => exact .ofList _
  | boolean | integer | float | string => exact List.pairwise_singleton _ _
  | null | bytes | map | node => exact .nil

end Value

namespace Reasoner

variable (r : Reasoner) {node : Node}

/-- The values of a node are a map if its attributes are one. -/
theorem strict_nodeValues (unique : Assoc.Strict node.properties) :
    Assoc.Strict (r.nodeValues node) :=
  List.pairwise_map.2 (unique.filter _)

/-- A literal stands under a key of the values of a node if the key is that of an attribute without a
meaning of its own, and the literal is among those of its value. -/
theorem find?_nodeValues (unique : Assoc.Strict node.properties) {key : Uri} {l : Literal} :
    (∃ set, Assoc.find? key (r.nodeValues node) = some set ∧ l ∈ set) ↔
      r.schema.isReservedKey key = false ∧
        ∃ value, node.property? key = some value ∧ l ∈ value.literals := by
  simp only [(r.strict_nodeValues unique).find?_eq_some_iff, Node.property?,
    unique.find?_eq_some_iff]
  simp only [nodeValues, List.mem_map, List.mem_filter, Bool.and_eq_true, Bool.not_eq_true',
    Prod.mk.injEq]
  constructor
  · rintro ⟨_, ⟨⟨_, value⟩, ⟨held, free, _⟩, rfl, rfl⟩, member⟩
    exact ⟨free, value, held, member⟩
  · rintro ⟨free, value, held, member⟩
    have some : value.literals.isEmpty = false := by
      rw [List.isEmpty_eq_false_iff]
      exact List.ne_nil_of_mem member
    exact ⟨_, ⟨(key, value), ⟨held, free, some⟩, rfl, rfl⟩, member⟩

end Reasoner

/-! ## Asking for a node -/

/-- The statement of a catalog query about an entity. -/
def Catalog.statementAbout (schema : Schema) (query : CatalogQuery) (uri : Uri) : Statement :=
  (Statement.ofText (Template.fill (tokens schema) query.template)).bind "uri" (.string uri)

namespace Reasoner

variable {σ : Type} {store : GraphStore σ} {c : Connection σ}

/-- A catalog query about an entity is read from the reply to its statement. -/
theorem run_query {α : Type} {config : Config} {query : CatalogQuery} {uri : Uri} {rows : List Row}
    (read : List Row → Except Failure α)
    (replied : store.Replies c.state (Catalog.statementAbout config.schema query uri) rows) :
    (((ofConfig config).query query [("uri", uri)] read).run store c).1 = read rows := by
  rw [Reasoner.query, ofConfig, Catalog.get_ofSchema]
  exact Plan.run_ask read replied

/-- The values of an individual are those of the node in the first row of the reply. -/
theorem answer_dataPropertyRelationships (config : Config) (individual : Uri) {node : Node} {row : Row}
    {rows : List Row}
    (replied : store.Replies c.state
      (Catalog.statementAbout config.schema .individualNode individual) (row :: rows))
    (shown : row.get? Column.individual = some node.toValue) :
    ((ofConfig config).answer store (.dataPropertyRelationships individual) c).1 =
      .ok (.values ((ofConfig config).nodeValues node)) := by
  have column : row.column Column.individual = .ok node.toValue := by
    rw [Row.column, shown]
  rw [answer, plan, Plan.run_map, dataPropertyRelationships, run_query _ replied]
  simp only [column]
  rfl

/-! ## Finding and reporting -/

/-- One node, which has a text in a list and a text by itself. -/
def aliased : Node :=
  ⟨["Resource"], [("alias", .list [.string "a"]), ("name", .string "b"), ("uri", .string "u")]⟩

theorem strict_aliased : Assoc.Strict aliased.properties := by
  simp only [Assoc.Strict, aliased, List.pairwise_cons, List.forall_mem_cons]
  decide +kernel

/-- The graph of that node; a value equals the literal that it is. -/
abbrev aliasedAlone : Database :=
  .single aliased fun value literal => value.literal? = some literal

theorem textEquality_aliasedAlone : aliasedAlone.TextEquality := by
  intro value s
  simp [aliasedAlone, Database.single, Value.literal?_eq_some, Literal.toValue]

/-- The row of that node. -/
def aliasedRow : Row :=
  ⟨[("individual", aliased.toValue)]⟩

/-- A store that replies with that row to everything. -/
def aliasedReply : Script :=
  ⟨[⟨none, none, [], .ok [aliasedRow]⟩], none⟩

theorem aliasedReply_replies (statement : Statement) :
    Script.store.Replies aliasedReply statement [aliasedRow] :=
  ⟨_, _, rfl, rfl⟩

/-- Lists aside, an individual is found by the texts that are reported of it.  A restriction to a text,
under a key that can be quoted and has no meaning of its own, has a pattern; and if the store replies to
the question for an individual with a node, the question has an answer.  The pattern matches the node if
its attribute is the text, and the text is reported if the pattern matches the node or the attribute is a
list that has it as an element. -/
theorem values_found_or_listed {D : Database} (equality : D.TextEquality) (config : Config)
    (schema : config.schema = D.schema) (procedure : String) {key name : Uri}
    (accepted : Query.uriName key = .ok name) (free : D.schema.isReservedKey key = false) (s : String)
    (target : Option String) (form : ∀ name ∈ target, Query.VariableForm name) (x : D.Vertex)
    (unique : Assoc.Strict (D.graph.node x).properties) {individual : Uri} {row : Row}
    {rows : List Row}
    (replied : store.Replies c.state (Catalog.statementAbout D.schema .individualNode individual)
      (row :: rows))
    (shown : row.get? Column.individual = some (D.graph.node x).toValue) :
    ∃ q values,
      (⟨D.schema, .direct, procedure⟩ : Compiler).pattern (.dataHas key (.string s)) target = .ok q ∧
      ((ofConfig config).answer store (.dataPropertyRelationships individual) c).1 =
        .ok (.values values) ∧
      (x ∈ q.matched D ↔ (D.graph.node x).property? key = some (.string s)) ∧
      ((∃ set, Assoc.find? key values = some set ∧ .string s ∈ set) ↔
        x ∈ q.matched D ∨
          ∃ items, (D.graph.node x).property? key = some (.list items) ∧ .string s ∈ items) := by
  obtain ⟨q, lowered, found⟩ := Compiler.pattern_dataHas_text equality procedure accepted s target form
  have answered := answer_dataPropertyRelationships config individual (schema ▸ replied) shown
  have unreserved : (ofConfig config).schema.isReservedKey key = false := by
    show config.schema.isReservedKey key = false
    rw [schema, free]
  refine ⟨q, _, lowered, answered, found x, ?_⟩
  rw [find?_nodeValues _ unique, found x]
  simp only [unreserved, true_and, Value.mem_literals]
  constructor
  · rintro ⟨_, held, rfl | ⟨items, rfl, member⟩⟩
    · exact .inl held
    · exact .inr ⟨items, held, member⟩
  · rintro (held | ⟨items, held, member⟩)
    · exact ⟨_, held, .inl rfl⟩
    · exact ⟨_, held, .inr ⟨items, rfl, member⟩⟩

theorem values_found_or_listed_name :
    ∃ q values,
      (⟨{}, .direct, "closure"⟩ : Compiler).pattern (.dataHas "name" (.string "b")) none = .ok q ∧
      ((ofConfig {}).answer Script.store (.dataPropertyRelationships "u") ⟨aliasedReply, .empty⟩).1 =
        .ok (.values values) ∧
      Database.only ∈ q.matched aliasedAlone ∧
      ∃ set, Assoc.find? "name" values = some set ∧ .string "b" ∈ set := by
  have quoted : Query.uriName "name" = .ok "\x60name\x60" := if_neg (by decide)
  obtain ⟨q, values, lowered, answered, found, reported⟩ := values_found_or_listed
    (c := ⟨aliasedReply, .empty⟩) textEquality_aliasedAlone {} rfl "closure" quoted rfl "b" none nofun
    Database.only strict_aliased (aliasedReply_replies _) rfl
  have member := found.2 rfl
  exact ⟨q, values, lowered, answered, member, reported.2 (.inl member)⟩

/-- An element of a list is reported of an individual that is not found by it. -/
theorem list_element_reported_not_found :
    ∃ q values,
      (⟨{}, .direct, "closure"⟩ : Compiler).pattern (.dataHas "alias" (.string "a")) none = .ok q ∧
      ((ofConfig {}).answer Script.store (.dataPropertyRelationships "u") ⟨aliasedReply, .empty⟩).1 =
        .ok (.values values) ∧
      aliasedAlone.TextEquality ∧ Database.only ∈ aliasedAlone.identified "u" ∧
      ({} : Schema).isReservedKey "alias" = false ∧
      (∃ set, Assoc.find? "alias" values = some set ∧ .string "a" ∈ set) ∧
      Database.only ∉ q.matched aliasedAlone := by
  have quoted : Query.uriName "alias" = .ok "\x60alias\x60" := if_neg (by decide)
  have held : aliased.property? "alias" = some (.list [.string "a"]) := rfl
  obtain ⟨q, lowered, found⟩ := Compiler.pattern_dataHas_text textEquality_aliasedAlone "closure"
    quoted "a" none nofun
  have shown : aliasedRow.get? Column.individual = some aliased.toValue := rfl
  have answered := answer_dataPropertyRelationships (c := ⟨aliasedReply, .empty⟩) {} "u"
    (aliasedReply_replies _) shown
  refine ⟨q, _, lowered, answered, textEquality_aliasedAlone, rfl, rfl, ?_, ?_⟩
  · rw [find?_nodeValues _ strict_aliased]
    exact ⟨rfl, _, held, Value.mem_literals.2 (.inr ⟨_, rfl, List.mem_cons_self⟩)⟩
  · rw [found]
    intro same
    cases held.symm.trans same

end Reasoner

end Ontograph
