import Ontograph.Proofs.Json.Indentation
import Ontograph.Proofs.Ontology.Encoding
import Ontograph.Proofs.Query.Fragment

/-!
# Patterns through JSON

A pattern is flat: however deep the expression is that it was built from, its JSON value nests five levels.
A value with a kind is decoded only if all its strings and numbers can be read (`Json.fits`), so each such
value is shown to be sound and shallow before it is shown to be decoded.

A literal without a text is refused when a pattern is built, so the doubles of a pattern are finite, and no
`null` stands where a double is read.

Main statements: `Pattern.decode?_toJson` and `Compiler.encoded_pattern_renders_text`.
-/

namespace Ontograph

namespace Json

/-! ## Sound values -/

theorem isSoundItems_iff {items : List Json} :
    isSoundItems items = true ↔ ∀ v ∈ items, v.isSound = true := by
  induction items with
  | nil => simp [isSoundItems]
  | cons v rest ih => simp [isSoundItems, ih]

theorem isSound_strings (l : List String) : (strings l).isSound = true :=
  isSoundItems_iff.2 (List.forall_mem_map.2 fun _ _ => rfl)

theorem isSound_int {i : Int} (word : i.natAbs < UInt64.size) : (int i).isSound = true :=
  Numeral.isSome_toBinary64?_ofInt word

theorem isSound_of_binary64? {v : Json} {x : Binary64} (h : v.binary64? = some x) :
    v.isSound = true := by
  cases v with
  | number n => exact Option.isSome_of_eq_some h
  | _ => cases h

/-! ## Lists of strings -/

theorem depth_strings_le (l : List String) : (strings l).depth ≤ 1 :=
  Nat.succ_le_succ (depthItems_le_iff.2 (List.forall_mem_map.2 fun _ _ => le_refl 0))

theorem texts?_strings (level : Nat) (l : List String) :
    (strings l).texts? (level + 1) = some l :=
  mapM_map_eq_some fun _ _ => rfl

end Json

namespace Literal

theorem isSound_toJson {value : Literal} (reads : ∀ x ∈ value.doubles, x.ReadsBack) :
    value.toJson.isSound = true := by
  cases value with
  | integer n =>
      have word : n.toInt.natAbs < UInt64.size := by
        have low := n.le_toInt
        have high := n.toInt_lt
        unfold UInt64.size
        omega
      simp [toJson, Json.tagged, Json.isSound, Json.isSoundMembers, Json.isSound_int word]
  | float x =>
      have sound := Json.isSound_of_binary64? (reads x List.mem_cons_self)
      simp [toJson, Json.tagged, Json.isSound, Json.isSoundMembers, sound]
  | string s | boolean b => rfl

end Literal

/-! ## Bindings -/

namespace MemberSet

theorem isSound_toJson (set : MemberSet) : set.toJson.isSound = true := rfl

theorem depth_toJson (set : MemberSet) : set.toJson.depth = 1 := rfl

theorem decode?_toJson (level : Nat) (set : MemberSet) :
    decode? (level + 1) set.toJson = some set := rfl

theorem writable_toJson (set : MemberSet) : set.toJson.Writable :=
  .record (by simp [Json.Writable.string])

end MemberSet

namespace Binding

theorem fits_toJson (level : Nat) (binding : Binding) : binding.toJson.fits (level + 3) = true := by
  cases binding with
  | members cls var => simp [Json.fits, toJson, Json.isSound, Json.isSoundMembers, Json.depth,
      Json.depthMembers]
  | common sets var =>
      have sound : Json.isSoundItems (sets.map MemberSet.toJson) = true :=
        Json.isSoundItems_iff.2 (List.forall_mem_map.2 fun set _ => set.isSound_toJson)
      have flat : Json.depthItems (sets.map MemberSet.toJson) ≤ level + 1 :=
        Json.depthItems_le_iff.2 (List.forall_mem_map.2 fun set _ =>
          set.depth_toJson.trans_le (Nat.le_add_left 1 level))
      simp [Json.fits, toJson, Json.isSound, Json.isSoundMembers, Json.depth, Json.depthMembers,
        sound, flat]

theorem decode?_toJson (level : Nat) (binding : Binding) :
    decode? (level + 3) binding.toJson = some binding := by
  rw [decode?, if_pos (binding.fits_toJson level)]
  cases binding with
  | members cls var => rfl
  | common sets var =>
      have each : (sets.map MemberSet.toJson).mapM (MemberSet.decode? (level + 1)) = some sets :=
        mapM_map_eq_some fun set _ => set.decode?_toJson level
      exact congrArg (Option.bind · fun sets => some (common sets var)) each

theorem writable_toJson (binding : Binding) : binding.toJson.Writable := by
  cases binding with
  | members cls var => exact .record (by simp [Json.Writable.string])
  | common sets var =>
      have each : (Json.array (sets.map MemberSet.toJson)).Writable :=
        .array (List.forall_mem_map.2 fun set _ => set.writable_toJson)
      exact .record (by simp [Json.Writable.string, each])

end Binding

/-! ## Parts -/

namespace Part

theorem fits_toJson (level : Nat) (part : Part) : part.toJson.fits (level + 2) = true := by
  cases part with
  | node var labels =>
      have flat : (Json.strings labels).depth ≤ level + 1 :=
        (Json.depth_strings_le labels).trans (Nat.le_add_left 1 level)
      simp [Json.fits, toJson, Json.isSound, Json.isSoundMembers, Json.depth, Json.depthMembers,
        Json.isSound_strings, flat]
  | edge | valueEdge =>
      simp [Json.fits, toJson, Json.isSound, Json.isSoundMembers, Json.depth, Json.depthMembers]

theorem decode?_toJson (level : Nat) (part : Part) :
    decode? (level + 2) part.toJson = some part := by
  rw [decode?, if_pos (part.fits_toJson level)]
  cases part with
  | node var labels =>
      exact congrArg (Option.bind · fun labels => some (node var labels))
        (Json.texts?_strings level labels)
  | edge | valueEdge => rfl

theorem writable_toJson (part : Part) : part.toJson.Writable := by
  cases part with
  | node var labels =>
      exact .record (by simp [Json.Writable.string, Json.Writable.strings labels])
  | edge | valueEdge => exact .record (by simp [Json.Writable.string])

end Part

/-! ## Conditions -/

namespace Condition

/-- The double that a condition may compare with. -/
def doubles : Condition → List Binary64
  | attributeEquals _ _ value => value.doubles
  | _ => []

theorem fits_toJson (level : Nat) {condition : Condition}
    (reads : ∀ x ∈ condition.doubles, x.ReadsBack) : condition.toJson.fits (level + 2) = true := by
  cases condition with
  | attributeEquals var key value =>
      simp [Json.fits, toJson, Json.isSound, Json.isSoundMembers, Json.depth, Json.depthMembers,
        Literal.isSound_toJson reads, Literal.depth_toJson]
  | hasAttribute | unsatisfiable =>
      simp [Json.fits, toJson, Json.isSound, Json.isSoundMembers, Json.depth, Json.depthMembers]

theorem decode?_toJson (level : Nat) {condition : Condition}
    (reads : ∀ x ∈ condition.doubles, x.ReadsBack) :
    decode? (level + 2) condition.toJson = some condition := by
  rw [decode?, if_pos (fits_toJson level reads)]
  cases condition with
  | attributeEquals var key value =>
      exact congrArg (Option.bind · fun value => some (attributeEquals var key value))
        (Literal.decode?_toJson level reads)
  | hasAttribute | unsatisfiable => rfl

theorem writable_toJson (condition : Condition) : condition.toJson.Writable := by
  cases condition with
  | attributeEquals var key value =>
      exact .record (by simp [Json.Writable.string, value.writable_toJson])
  | hasAttribute | unsatisfiable => exact .record (by simp [Json.Writable.string])

/-- A condition with a text compares with finite doubles only. -/
theorem Printable.finite {condition : Condition} (h : condition.Printable) :
    ∀ x ∈ condition.doubles, x.isFinite = true := by
  cases condition with
  | attributeEquals var key value =>
      cases value with
      | float x => exact List.forall_mem_singleton.2 h.2
      | _ => exact List.forall_mem_nil _
  | hasAttribute | unsatisfiable => exact List.forall_mem_nil _

end Condition

/-! ## Tallies -/

namespace Tally

/-- All counts fit into 64 bits. -/
structure Counted (tally : Tally) : Prop where
  nodes : tally.nodes < 2 ^ 64
  opened : tally.opened < 2 ^ 64
  closed : tally.closed < 2 ^ 64
  depth : tally.depth < 2 ^ 64

theorem decode?_toJson (level : Nat) {tally : Tally} (counted : tally.Counted) :
    decode? (level + 1) tally.toJson = some tally := by
  have count : ∀ {n : Nat}, n < 2 ^ 64 → (Json.int n).nat? 64 = some n := Json.nat?_int (le_refl 64)
  show (do
    let nodes ← (Json.int tally.nodes).nat? 64
    let opened ← (Json.int tally.opened).nat? 64
    let closed ← (Json.int tally.closed).nat? 64
    let depth ← (Json.int tally.depth).nat? 64
    some (Tally.mk nodes opened closed depth)) = _
  rw [count counted.nodes, count counted.opened, count counted.closed, count counted.depth]
  rfl

theorem writable_toJson (tally : Tally) : tally.toJson.Writable :=
  .record (by simp [Json.Writable.int])

end Tally

/-! ## Patterns -/

namespace Pattern

/-- The doubles that the conditions of a pattern compare with. -/
def doubles (pattern : Pattern) : List Binary64 :=
  pattern.conditions.flatMap Condition.doubles

theorem writable_toJson (pattern : Pattern) : pattern.toJson.Writable := by
  have bindings : (Json.array (pattern.bindings.map Binding.toJson)).Writable :=
    .array (List.forall_mem_map.2 fun binding _ => binding.writable_toJson)
  have parts : (Json.array (pattern.parts.map Part.toJson)).Writable :=
    .array (List.forall_mem_map.2 fun part _ => part.writable_toJson)
  have conditions : (Json.array (pattern.conditions.map Condition.toJson)).Writable :=
    .array (List.forall_mem_map.2 fun condition _ => condition.writable_toJson)
  exact .record (by simp [bindings, parts, conditions, pattern.tally.writable_toJson,
    Json.Writable.string, Json.Writable.strings])

/-- A pattern is decoded from its encoding, however large it is. -/
theorem decode?_toJson (level : Nat) {pattern : Pattern} (counted : pattern.tally.Counted)
    (reads : ∀ x ∈ pattern.doubles, x.ReadsBack) :
    decode? (level + 5) pattern.toJson = some pattern := by
  have bindings : (pattern.bindings.map Binding.toJson).mapM (Binding.decode? (level + 3)) =
      some pattern.bindings := mapM_map_eq_some fun binding _ => binding.decode?_toJson level
  have parts : (pattern.parts.map Part.toJson).mapM (Part.decode? (level + 3)) =
      some pattern.parts := mapM_map_eq_some fun part _ => part.decode?_toJson (level + 1)
  have conditions : (pattern.conditions.map Condition.toJson).mapM (Condition.decode? (level + 3)) =
      some pattern.conditions := mapM_map_eq_some fun condition hc =>
    Condition.decode?_toJson (level + 1) (List.forall_mem_flatMap.1 reads condition hc)
  show (do
    let bindings ← (pattern.bindings.map Binding.toJson).mapM (Binding.decode? (level + 3))
    let parts ← (pattern.parts.map Part.toJson).mapM (Part.decode? (level + 3))
    let conditions ← (pattern.conditions.map Condition.toJson).mapM (Condition.decode? (level + 3))
    let nodes ← (Json.strings pattern.nodes).texts? (level + 4)
    let tally ← Tally.decode? (level + 4) pattern.tally.toJson
    some (Pattern.mk bindings parts conditions pattern.target nodes tally)) = _
  rw [bindings, parts, conditions, Json.texts?_strings, Tally.decode?_toJson (level + 3) counted]
  rfl

/-- The pattern of an expression compares with finite doubles only. -/
theorem finite_of_toPattern {mode : Mode} {target : Option String} {e : ClassExpression}
    {q : Pattern} (h : e.toPattern mode target = .ok q) : ∀ x ∈ q.doubles, x.isFinite = true :=
  List.forall_mem_flatMap.2 fun condition hc => ((printable_of_toPattern h).2 condition hc).finite

end Pattern

/-! ## Two ways to a query text -/

namespace Compiler

/-- If an expression has a pattern, the pattern is decoded from either text of its encoding, and what is
decoded is rendered as the query text of the expression. -/
theorem encoded_pattern_renders_text {compiler : Compiler} {e : ClassExpression}
    {target : Option String} {q : Pattern} (accepted : compiler.pattern e target = .ok q)
    (counted : q.tally.Counted) (reads : ∀ x ∈ q.doubles, x.isFinite = true → x.ReadsBack) :
    ∃ query, compiler.text e target = .ok query ∧
      ∀ text ∈ [Json.compact q.toJson, Json.indented q.toJson], ∃ decoded,
        Json.decodeText? Pattern.decode? text = some decoded ∧ decoded = q ∧
          decoded.render compiler.schema compiler.procedure = .ok query := by
  obtain ⟨query, rendered⟩ := Pattern.render_of_toPattern accepted compiler.schema compiler.procedure
  have finite := Pattern.finite_of_toPattern accepted
  have decoded : Pattern.decode? Json.textLevels q.toJson = some q :=
    Pattern.decode?_toJson 122 counted fun x hx => reads x hx (finite x hx)
  have compiled : compiler.text e target = .ok query := by rw [text, accepted]; exact rendered
  have parsed : ∀ text ∈ [Json.compact q.toJson, Json.indented q.toJson],
      Json.parse? text = some q.toJson := by
    have writable := q.writable_toJson
    simp [Json.parse?_compact writable, Json.parse?_indented writable]
  refine ⟨query, compiled, fun text ht => ⟨q, ?_, rfl, rendered⟩⟩
  rw [Json.decodeText?, parsed text ht, Option.bind_some, decoded]

/-- The class of things with the value 2.5 of an attribute. -/
def fiveHalves : ClassExpression :=
  .intersection [.named "http://e.org/C", .dataHas "http://e.org/p" (.float ⟨0x4004000000000000⟩)]

/-- The pattern of `fiveHalves`. -/
def fiveHalvesPattern : Pattern :=
  ⟨[], [.node "n0" ["http://e.org/C"]],
    [.attributeEquals "n0" "http://e.org/p" (.float ⟨0x4004000000000000⟩)], "n0", ["n0"], ⟨1, 1, 1, 1⟩⟩

theorem encoded_pattern_renders_text_fiveHalves :
    let compiler := ({} : Config).compiler
    compiler.pattern fiveHalves none = .ok fiveHalvesPattern ∧
      fiveHalvesPattern.tally.Counted ∧
      (∀ x ∈ fiveHalvesPattern.doubles, x.isFinite = true → x.ReadsBack) ∧
      ∃ query, compiler.text fiveHalves none = .ok query ∧
        ∀ text ∈ [Json.compact fiveHalvesPattern.toJson, Json.indented fiveHalvesPattern.toJson],
          ∃ decoded, Json.decodeText? Pattern.decode? text = some decoded ∧
            decoded = fiveHalvesPattern ∧
            decoded.render compiler.schema compiler.procedure = .ok query := by
  have accepted : ({} : Config).compiler.pattern fiveHalves none = .ok fiveHalvesPattern := rfl
  have counted : fiveHalvesPattern.tally.Counted := by constructor <;> decide
  have reads : ∀ x ∈ fiveHalvesPattern.doubles, x.isFinite = true → x.ReadsBack :=
    List.forall_mem_singleton.2 fun _ => Binary64.readsBack_fiveHalves
  exact ⟨accepted, counted, reads, encoded_pattern_renders_text accepted counted reads⟩

end Compiler

end Ontograph
