import Ontograph.Ontology.ClassExpression.Json
import Ontograph.Proofs.Json.RoundTrip
import Ontograph.Proofs.Number.Reading
import Ontograph.Proofs.Ontology.Subterms

/-!
# Expressions through JSON

Which expressions have an encoding that nests no more than some levels is said by recursion over the
expression (`ClassExpression.Encodable`): the operands of its sets ascend, its doubles are finite, and its
depth fits.  What is decoded at a level is encodable at this level, in whatever spelling it came, so it is
written again without nesting deeper than it was read; and what is encodable at a level is decoded from
its own encoding.

Reading doubles is not exact.  That a double is what its numeral is read as, is a condition on the double
(`Binary64.ReadsBack`).

Main statements: `encodable_of_decode?`, `decode?_toJson`, `encodable_iff` and `json_round_trip`.
-/

namespace Ontograph

/-! ## Integers -/

/-- An integer that fits into 64 bits, with a sign or without, is what its numeral stands for. -/
theorem Numeral.toInt?_ofInt {n : Int} (low : Int64.minValue.toInt ≤ n) (high : n < UInt64.size) :
    (ofInt n).toInt? = some n := by
  have size : Digit.value (ofInt n).whole = n.natAbs := Digit.value_ofNat _
  have plain : ((ofInt n).fraction.isEmpty && (ofInt n).exponent.isNone) = true := rfl
  have sign : (ofInt n).negative = decide (n < 0) := rfl
  unfold toInt?
  simp only
  rw [if_pos plain, size, sign]
  by_cases negative : n < 0
  · have same : -(n.natAbs : Int) = n := by omega
    have positive : 0 < n.natAbs := by omega
    have inside : (decide (0 < n.natAbs) && decide (Int64.minValue.toInt ≤ n)) = true :=
      Bool.and_eq_true_iff.2 ⟨decide_eq_true positive, decide_eq_true low⟩
    rw [same, if_pos (decide_eq_true negative), if_pos inside]
  · have same : (n.natAbs : Int) = n := by omega
    have fits : n.natAbs < UInt64.size := by omega
    rw [if_neg (by simpa using negative), if_pos fits, same]

namespace Json

theorem depthItems_le_iff {items : List Json} {n : Nat} :
    depthItems items ≤ n ↔ ∀ v ∈ items, v.depth ≤ n := by
  induction items with
  | nil => simp [depthItems]
  | cons v rest ih => rw [depthItems, max_le_iff, ih, List.forall_mem_cons]

@[simp] theorem depth_tagged (key : String) (v : Json) : (tagged key v).depth = v.depth + 1 := by
  simp [tagged, depth, depthMembers]

theorem Writable.tagged {v : Json} (key : String) (writable : v.Writable) :
    (Json.tagged key v).Writable :=
  .object (List.forall_mem_singleton.2 writable)

theorem Writable.int (n : Int) : (Json.int n).Writable :=
  .number (Numeral.formed_ofInt n)

theorem int?_int {low high n : Int} (least : Int64.minValue.toInt ≤ low) (most : high < UInt64.size)
    (above : low ≤ n) (below : n ≤ high) : (int n).int? low high = some n := by
  have read := Numeral.toInt?_ofInt (least.trans above) (below.trans_lt most)
  rw [int, int?, read, Option.bind_some, if_pos ⟨above, below⟩]

theorem int64?_int (n : Int64) : (int n.toInt).int64? = some n := by
  rw [int64?, int?_int (le_refl _) (by decide) n.minValue_le_toInt n.toInt_le]
  exact congrArg some n.ofInt_toInt

theorem nat?_int {width n : Nat} (word : width ≤ 64) (below : n < 2 ^ width) :
    (int n).nat? width = some n := by
  have most : 1 <<< width - 1 < UInt64.size := by
    have powers := Nat.pow_le_pow_right two_pos word
    have positive := Nat.two_pow_pos width
    rw [Nat.one_shiftLeft, UInt64.size]
    omega
  have inside : n ≤ 1 <<< width - 1 := by
    rw [Nat.one_shiftLeft]
    omega
  rw [nat?, int?_int (by decide) (by exact_mod_cast most) (Int.natCast_nonneg _)
    (by exact_mod_cast inside)]
  rfl

end Json

/-! ## Literals -/

/-- The JSON value of a double is read as that double. -/
def Binary64.ReadsBack (x : Binary64) : Prop :=
  x.toJson.binary64? = some x

/-- The double 2.5 is read as 25 divided by ten. -/
theorem Binary64.readsBack_fiveHalves : ReadsBack ⟨0x4004000000000000⟩ := by
  show Numeral.scale (ofNat 25) (-1) = _
  rw [Numeral.scale, if_pos (by decide), Numeral.scaleDown, if_pos (by decide)]
  rfl

namespace Literal

/-- The double that a literal may be. -/
def doubles : Literal → List Binary64
  | float x => [x]
  | _ => []

theorem decode?_toJson (level : Nat) {value : Literal} (reads : ∀ x ∈ value.doubles, x.ReadsBack) :
    decode? (level + 1) value.toJson = some value := by
  cases value with
  | integer n =>
      show (Json.int n.toInt).int64?.map integer = _
      rw [Json.int64?_int]
      rfl
  | float x =>
      have own := reads x List.mem_cons_self
      show x.toJson.binary64?.map float = _
      rw [own]
      rfl
  | string s => rfl
  | boolean b => rfl

/-- A literal is decoded one level down, and if it is a double, it is finite. -/
theorem finite_of_decode? {level : Nat} {v : Json} {value : Literal}
    (h : decode? level v = some value) :
    ∃ n, level = n + 1 ∧ ∀ x ∈ value.doubles, x.isFinite = true := by
  cases level with
  | zero => cases h
  | succ level =>
      refine ⟨level, rfl, ?_⟩
      rw [decode?] at h
      split at h
      · obtain ⟨n, _, rfl⟩ := Option.map_eq_some_iff.1 h
        exact List.forall_mem_nil _
      · next content _ =>
          obtain ⟨x, hx, rfl⟩ := Option.map_eq_some_iff.1 h
          refine List.forall_mem_singleton.2 ?_
          cases content with
          | number n => exact Numeral.isFinite_of_toBinary64? hx
          | _ => cases hx
      · obtain ⟨s, _, rfl⟩ := Option.map_eq_some_iff.1 h
        exact List.forall_mem_nil _
      · obtain ⟨b, _, rfl⟩ := Option.map_eq_some_iff.1 h
        exact List.forall_mem_nil _
      · cases h

theorem depth_toJson (value : Literal) : value.toJson.depth = 1 := by
  cases value with
  | float x =>
      show max x.toJson.depth 0 + 1 = 1
      unfold Binary64.toJson
      split <;> rfl
  | _ => rfl

theorem writable_toJson (value : Literal) : value.toJson.Writable := by
  cases value with
  | integer n => exact .tagged _ (.int _)
  | float x =>
      refine .tagged _ ?_
      unfold Binary64.toJson
      split
      · next finite => exact .number (Binary64.formed_numeral finite)
      · exact .null
  | string s => exact .tagged _ (.string s)
  | boolean b => exact .tagged _ (.bool b)

end Literal

theorem Restriction.decode?_toJson (level : Nat) (restriction : Restriction) :
    decode? level restriction.toJson = some restriction := by
  cases restriction <;> rfl

namespace ClassExpression

/-! ## Encodable expressions -/

/-- The double that an expression restricts a property to, its operands and its filler aside. -/
def ownDoubles : ClassExpression → List Binary64
  | dataHas _ value => value.doubles
  | _ => []

/-- The doubles in an expression. -/
def doubles (e : ClassExpression) : List Binary64 :=
  e.subterms.flatMap ownDoubles

theorem forall_doubles_operands {P : Binary64 → Prop} {l : List ClassExpression} :
    (∀ x ∈ (subtermsList l).flatMap ownDoubles, P x) ↔ ∀ e ∈ l, ∀ x ∈ e.doubles, P x := by
  unfold doubles
  simp only [List.forall_mem_flatMap, forall_subtermsList]

/-- The expressions that are written and read within some levels: the operands of their sets ascend,
their doubles are finite, and they do not nest deeper. -/
inductive Encodable : Nat → ClassExpression → Prop where
  | thing (level : Nat) : Encodable level thing
  | nothing (level : Nat) : Encodable level nothing
  | named (level : Nat) (uri : Uri) : Encodable (level + 1) (named uri)
  | intersection {level : Nat} {operands : List ClassExpression} (set : Ascending.Strict operands)
      (each : ∀ e ∈ operands, Encodable level e) : Encodable (level + 2) (intersection operands)
  | union {level : Nat} {operands : List ClassExpression} (set : Ascending.Strict operands)
      (each : ∀ e ∈ operands, Encodable level e) : Encodable (level + 2) (union operands)
  | complement {level : Nat} {operand : ClassExpression} (inner : Encodable level operand) :
      Encodable (level + 1) (complement operand)
  | objectSome {level : Nat} (property : Uri) {filler : ClassExpression}
      (inner : Encodable level filler) : Encodable (level + 2) (objectSome property filler)
  | objectAll {level : Nat} (property : Uri) {filler : ClassExpression}
      (inner : Encodable level filler) : Encodable (level + 2) (objectAll property filler)
  | objectHas (level : Nat) (property individual : Uri) :
      Encodable (level + 2) (objectHas property individual)
  | objectCardinality {level : Nat} (restriction : Restriction) (count : UInt32) (property : Uri)
      {filler : ClassExpression} (inner : Encodable level filler) :
      Encodable (level + 2) (objectCardinality restriction count property filler)
  | dataSome (level : Nat) (property : Uri) : Encodable (level + 2) (dataSome property)
  | dataHas (level : Nat) (property : Uri) {value : Literal}
      (finite : ∀ x ∈ value.doubles, x.isFinite = true) :
      Encodable (level + 3) (dataHas property value)
  | dataAll (level : Nat) (property range : Uri) : Encodable (level + 2) (dataAll property range)

/-! ## What is decoded -/

theorem operands?_eq_some {decode? : Json → Option ClassExpression} {v : Json}
    {l : List ClassExpression} (h : operands? decode? v = some l) :
    Ascending.Strict l ∧ ∀ e ∈ l, ∃ v, decode? v = some e := by
  unfold operands? at h
  split at h
  · obtain ⟨m, hm, rfl⟩ := Option.map_eq_some_iff.1 h
    refine ⟨Ascending.Strict.ofList m, fun e he => ?_⟩
    obtain ⟨v, _, hv⟩ := (mem_of_mapM_eq_some hm).1 (Ascending.mem_ofList.1 he)
    exact ⟨v, hv⟩
  · cases h

theorem filler?_eq_some {decode? : Json → Option ClassExpression} {v : Json}
    {p : Uri × ClassExpression} (h : filler? decode? v = some p) : ∃ v, decode? v = some p.2 := by
  unfold filler? at h
  split at h
  · obtain ⟨_, _, h⟩ := Option.bind_eq_some_iff.1 h
    obtain ⟨e, he, h⟩ := Option.bind_eq_some_iff.1 h
    cases h
    exact ⟨_, he⟩
  · cases h

theorem encodable_of_cardinality? {level : Nat} {decode? : Json → Option ClassExpression}
    (parts : ∀ v e, decode? v = some e → e.Encodable level) {v : Json} {e : ClassExpression}
    (h : cardinality? level decode? v = some e) : e.Encodable (level + 2) := by
  unfold cardinality? at h
  split at h
  · obtain ⟨restriction, _, h⟩ := Option.bind_eq_some_iff.1 h
    obtain ⟨count, _, h⟩ := Option.bind_eq_some_iff.1 h
    obtain ⟨property, _, h⟩ := Option.bind_eq_some_iff.1 h
    obtain ⟨filler, hf, h⟩ := Option.bind_eq_some_iff.1 h
    cases h
    exact .objectCardinality _ _ _ (parts _ filler hf)
  · cases h

theorem encodable_of_dataHas? {level : Nat} {v : Json} {e : ClassExpression}
    (h : dataHas? level v = some e) : e.Encodable (level + 2) := by
  unfold dataHas? at h
  split at h
  · obtain ⟨property, _, h⟩ := Option.bind_eq_some_iff.1 h
    obtain ⟨value, hv, h⟩ := Option.bind_eq_some_iff.1 h
    cases h
    obtain ⟨n, rfl, finite⟩ := Literal.finite_of_decode? hv
    exact .dataHas n property finite
  · cases h

theorem encodable_of_ofParts? {level : Nat} {decode? : Json → Option ClassExpression}
    (parts : ∀ v e, decode? v = some e → e.Encodable level) {kind : String} {content : Json}
    {e : ClassExpression} (h : ofParts? level decode? kind content = some e) :
    e.Encodable (level + 2) := by
  have members : ∀ {l : List ClassExpression}, (∀ e ∈ l, ∃ v, decode? v = some e) →
      ∀ e ∈ l, e.Encodable level := by
    intro l decoded e he
    obtain ⟨v, hv⟩ := decoded e he
    exact parts v e hv
  unfold ofParts? at h
  split at h
  · obtain ⟨l, hl, rfl⟩ := Option.map_eq_some_iff.1 h
    obtain ⟨set, decoded⟩ := operands?_eq_some hl
    exact .intersection set (members decoded)
  · obtain ⟨l, hl, rfl⟩ := Option.map_eq_some_iff.1 h
    obtain ⟨set, decoded⟩ := operands?_eq_some hl
    exact .union set (members decoded)
  · obtain ⟨p, hp, rfl⟩ := Option.map_eq_some_iff.1 h
    obtain ⟨v, hv⟩ := filler?_eq_some hp
    exact .objectSome _ (parts v _ hv)
  · obtain ⟨p, hp, rfl⟩ := Option.map_eq_some_iff.1 h
    obtain ⟨v, hv⟩ := filler?_eq_some hp
    exact .objectAll _ (parts v _ hv)
  · obtain ⟨p, _, rfl⟩ := Option.map_eq_some_iff.1 h
    exact .objectHas level _ _
  · exact encodable_of_cardinality? parts h
  · split at h
    · obtain ⟨p, _, rfl⟩ := Option.map_eq_some_iff.1 h
      exact .dataSome level _
    · cases h
  · exact encodable_of_dataHas? h
  · obtain ⟨p, _, rfl⟩ := Option.map_eq_some_iff.1 h
    exact .dataAll level _ _
  · cases h

theorem encodable_of_ofName? {name : String} {e : ClassExpression} (level : Nat)
    (h : ofName? name = some e) : e.Encodable level := by
  unfold ofName? at h
  split at h
  · cases h
    exact .thing level
  · cases h
    exact .nothing level
  · cases h

/-- What is decoded is encodable within the same levels, however it was spelled. -/
theorem encodable_of_decode? {level : Nat} {v : Json} {e : ClassExpression}
    (h : decode? level v = some e) : e.Encodable level := by
  induction level using Nat.strongRecOn generalizing v e with
  | ind level ih =>
      unfold decode? at h
      split at h
      · exact encodable_of_ofName? _ h
      · split at h
        · exact encodable_of_ofName? _ h
        · obtain ⟨uri, _, rfl⟩ := Option.map_eq_some_iff.1 h
          exact .named _ uri
        · obtain ⟨operand, ho, rfl⟩ := Option.map_eq_some_iff.1 h
          exact .complement (ih _ (Nat.lt_succ_self _) ho)
        · split at h
          · cases h
          · exact encodable_of_ofParts?
              (fun v e hv => ih _ (Nat.lt_succ_of_lt (Nat.lt_succ_self _)) hv) h
      · cases h

/-! ## What is written -/

theorem toJsonList_eq_map (l : List ClassExpression) : toJsonList l = l.map toJson := by
  induction l with
  | nil => rfl
  | cons a rest ih => rw [toJsonList, ih, List.map_cons]

theorem operands?_toJsonList {decode? : Json → Option ClassExpression} {l : List ClassExpression}
    (set : Ascending.Strict l) (each : ∀ e ∈ l, decode? e.toJson = some e) :
    operands? decode? (.array (toJsonList l)) = some l := by
  rw [operands?, toJsonList_eq_map, mapM_map_eq_some each, Option.map_some,
    Ascending.ofList_eq_self set]

theorem filler?_toJson {decode? : Json → Option ClassExpression} (property : Uri)
    {e : ClassExpression} (h : decode? e.toJson = some e) :
    filler? decode? (.object [("property", .string property), ("filler", e.toJson)]) =
      some (property, e) :=
  congrArg (Option.bind · fun filler => some (property, filler)) h

/-- A complement is not taken for a bare name, since no expression is written as `null`. -/
theorem decode?_complement (level : Nat) (operand : ClassExpression) :
    decode? (level + 1) (complement operand).toJson =
      (decode? level operand.toJson).map complement := by
  cases operand <;> rfl

/-- What is encodable within some levels is decoded from its encoding at the last of them. -/
theorem decode?_toJson {level : Nat} {e : ClassExpression} (h : e.Encodable level)
    (reads : ∀ x ∈ e.doubles, x.ReadsBack) : decode? level e.toJson = some e := by
  induction h with
  | thing level | nothing level => cases level <;> rfl
  | named => rfl
  | @intersection level operands set each ih =>
      have parts := forall_doubles_operands.1 reads
      have decoded := operands?_toJsonList set fun e he => ih e he (parts e he)
      exact congrArg (Option.map intersection) decoded
  | @union level operands set each ih =>
      have parts := forall_doubles_operands.1 reads
      have decoded := operands?_toJsonList set fun e he => ih e he (parts e he)
      exact congrArg (Option.map union) decoded
  | complement _ ih =>
      rw [decode?_complement, ih reads]
      rfl
  | @objectSome _ property _ _ ih =>
      exact congrArg (Option.map _) (filler?_toJson property (ih reads))
  | @objectAll _ property _ _ ih =>
      exact congrArg (Option.map _) (filler?_toJson property (ih reads))
  | objectHas => rfl
  | @objectCardinality level restriction count property filler inner ih =>
      show (Restriction.decode? level restriction.toJson).bind (fun restriction =>
        ((Json.int count.toNat).nat? 32).bind fun count =>
          (decode? level filler.toJson).bind fun filler =>
            some (ClassExpression.objectCardinality restriction (.ofNat count) property filler)) = _
      rw [Restriction.decode?_toJson, Json.nat?_int (by decide) count.toNat_lt, ih reads]
      exact congrArg (fun n => some (ClassExpression.objectCardinality restriction n property filler))
        count.ofNat_toNat
  | dataSome => rfl
  | dataHas level property finite =>
      exact congrArg (Option.bind · fun value => some (ClassExpression.dataHas property value))
        (Literal.decode?_toJson level fun x hx => reads x (List.mem_append_left _ hx))
  | dataAll => rfl

/-- Every expression is shown as it is by the text of its encoding. -/
theorem writable_toJson (e : ClassExpression) : e.toJson.Writable := by
  induction e using induction with
  | thing | nothing => exact .string _
  | named uri => exact .tagged _ (.string uri)
  | intersection operands ih | union operands ih =>
      refine .tagged _ (.array ?_)
      rw [toJsonList_eq_map]
      exact List.forall_mem_map.2 ih
  | complement _ ih => exact .tagged _ ih
  | objectSome property _ ih | objectAll property _ ih =>
      exact .tagged _ (.record (by simp [ih, Json.Writable.string]))
  | objectCardinality restriction count property _ ih =>
      have bound := Json.Writable.int count.toNat
      exact .tagged _ (.record (by simp [ih, Restriction.toJson, Json.Writable.string, bound]))
  | dataHas property value =>
      exact .tagged _ (.record (by simp [value.writable_toJson, Json.Writable.string]))
  | objectHas | dataSome | dataAll =>
      exact .tagged _ (.record (by simp [Json.Writable.string]))

/-! ## Encodable expressions, seen from their encodings -/

theorem depthItems_toJsonList_le {l : List ClassExpression} {n : Nat} :
    Json.depthItems (toJsonList l) ≤ n ↔ ∀ e ∈ l, e.toJson.depth ≤ n := by
  rw [toJsonList_eq_map, Json.depthItems_le_iff, List.forall_mem_map]

theorem Encodable.canonical {level : Nat} {e : ClassExpression} (h : e.Encodable level) :
    e.Canonical := by
  induction h with
  | intersection set _ ih | union set _ ih => exact ⟨set, canonicalList_iff.2 ih⟩
  | complement _ ih | objectSome _ _ ih | objectAll _ _ ih | objectCardinality _ _ _ _ ih => exact ih
  | _ => trivial

/-- A decoded expression is canonical, in whatever order the operands of its sets stood. -/
theorem canonical_of_decode? {level : Nat} {v : Json} {e : ClassExpression}
    (h : decode? level v = some e) : e.Canonical :=
  (encodable_of_decode? h).canonical

theorem Encodable.finite {level : Nat} {e : ClassExpression} (h : e.Encodable level) :
    ∀ x ∈ e.doubles, x.isFinite = true := by
  induction h with
  | intersection _ _ ih | union _ _ ih => exact forall_doubles_operands.2 ih
  | complement _ ih | objectSome _ _ ih | objectAll _ _ ih | objectCardinality _ _ _ _ ih => exact ih
  | dataHas _ _ finite => exact fun x hx => finite x (by simpa [doubles, subterms, ownDoubles] using hx)
  | _ => exact List.forall_mem_nil _

theorem Encodable.depth_toJson_le {level : Nat} {e : ClassExpression} (h : e.Encodable level) :
    e.toJson.depth ≤ level := by
  induction h with
  | intersection _ _ ih | union _ _ ih =>
      have deepest := depthItems_toJsonList_le.2 ih
      simp [toJson, Json.depth, deepest]
  | complement _ ih | objectSome _ _ ih | objectAll _ _ ih =>
      simp [toJson, Json.depth, Json.depthMembers, ih]
  | objectCardinality restriction _ _ _ ih =>
      simp [toJson, Restriction.toJson, Json.int, Json.depth, Json.depthMembers, ih]
  | dataHas => simp [toJson, Json.depth, Json.depthMembers, Literal.depth_toJson]
  | _ => simp [toJson, Json.depth, Json.depthMembers]

/-- Levels that hold a depth below some outer levels are these and others that hold the depth. -/
theorem exists_inner_levels {depth outer level : Nat} (h : depth + outer ≤ level) :
    ∃ inner, level = inner + outer ∧ depth ≤ inner :=
  ⟨level - outer, by omega, by omega⟩

theorem encodable_of_depth_le {level : Nat} {e : ClassExpression} (canonical : e.Canonical)
    (finite : ∀ x ∈ e.doubles, x.isFinite = true) (fits : e.toJson.depth ≤ level) :
    e.Encodable level := by
  induction e using induction generalizing level with
  | thing | nothing => constructor
  | named uri =>
      obtain ⟨n, rfl, -⟩ := exists_inner_levels (show 0 + 1 ≤ level from fits)
      constructor
  | intersection operands ih | union operands ih =>
      have deep : Json.depthItems (toJsonList operands) + 2 ≤ level :=
        le_of_eq_of_le (by simp [toJson, Json.depth]) fits
      obtain ⟨n, rfl, below⟩ := exists_inner_levels deep
      have each : ∀ e ∈ operands, e.Encodable n := fun e he =>
        ih e he (canonicalList_iff.1 canonical.2 e he) (forall_doubles_operands.1 finite e he)
          (depthItems_toJsonList_le.1 below e he)
      constructor
      · exact canonical.1
      · exact each
  | complement operand ih =>
      have deep : operand.toJson.depth + 1 ≤ level := le_of_eq_of_le (by simp [toJson]) fits
      obtain ⟨n, rfl, below⟩ := exists_inner_levels deep
      exact .complement (ih canonical finite below)
  | objectSome _ filler ih | objectAll _ filler ih | objectCardinality restriction _ _ filler ih =>
      have deep : filler.toJson.depth + 2 ≤ level := le_of_eq_of_le
        (by simp [toJson, Restriction.toJson, Json.int, Json.depth, Json.depthMembers]) fits
      obtain ⟨n, rfl, below⟩ := exists_inner_levels deep
      constructor
      exact ih canonical finite below
  | objectHas | dataSome | dataAll =>
      obtain ⟨n, rfl, -⟩ := exists_inner_levels (show 0 + 2 ≤ level from fits)
      constructor
  | dataHas property value =>
      have deep : 0 + 3 ≤ level := le_of_eq_of_le
        (by simp [toJson, Json.depth, Json.depthMembers, Literal.depth_toJson]) fits
      obtain ⟨n, rfl, -⟩ := exists_inner_levels deep
      exact .dataHas n property fun x hx => finite x (List.mem_append_left _ hx)

/-- What is encodable within some levels is what is canonical, has finite doubles only and does not
nest deeper. -/
theorem encodable_iff {level : Nat} {e : ClassExpression} :
    e.Encodable level ↔
      e.Canonical ∧ (∀ x ∈ e.doubles, x.isFinite = true) ∧ e.toJson.depth ≤ level :=
  ⟨fun h => ⟨h.canonical, h.finite, h.depth_toJson_le⟩,
    fun ⟨canonical, finite, fits⟩ => encodable_of_depth_le canonical finite fits⟩

/-! ## Round trips through texts -/

/-- What an expression is written as is read as the expression exactly if its sets ascend, its doubles
are finite and it does not nest too deep; and this is so for what was read from any text. -/
theorem json_round_trip (e : ClassExpression)
    (reads : ∀ x ∈ e.doubles, x.isFinite = true → x.ReadsBack) :
    (Json.decodeText? decode? (Json.compact e.toJson) = some e ↔
      e.Canonical ∧ (∀ x ∈ e.doubles, x.isFinite = true) ∧ e.toJson.depth ≤ Json.textLevels) ∧
    ∀ text, Json.decodeText? decode? text = some e →
      Json.decodeText? decode? (Json.compact e.toJson) = some e := by
  have written : Json.decodeText? decode? (Json.compact e.toJson) = some e ↔
      e.Encodable Json.textLevels := by
    rw [Json.decodeText?, Json.parse?_compact (writable_toJson e), Option.bind_some]
    exact ⟨encodable_of_decode?, fun h => decode?_toJson h fun x hx => reads x hx (h.finite x hx)⟩
  refine ⟨written.trans encodable_iff, fun text h => written.2 ?_⟩
  obtain ⟨v, _, hv⟩ := Option.bind_eq_some_iff.1 h
  exact encodable_of_decode? hv

/-- A conjunction of a class with a quote, a backslash, controls and a letter beyond ASCII in its
identifier and of a restriction to the double 2.5. -/
def quotedAndDouble : ClassExpression :=
  intersection [named "a\"\\\n\x01é", dataHas "p" (.float ⟨0x4004000000000000⟩)]

/-- Another text of `quotedAndDouble`: its set in another order, a record as an array, and characters
by their numbers. -/
def otherSpelling : String :=
  "\x7b\"intersection\":[\x7b\"data_has_value\":[\"p\", \x7b\"float\":2.5\x7d]\x7d,
    \x7b\"class\":\"a\\u0022\\\\\\u000A\\u0001\\u00e9\"\x7d]\x7d"

theorem json_round_trip_otherSpelling :
    (∀ x ∈ quotedAndDouble.doubles, x.isFinite = true → x.ReadsBack) ∧
      Json.decodeText? decode? otherSpelling = some quotedAndDouble ∧
      Json.decodeText? decode? (Json.compact quotedAndDouble.toJson) = some quotedAndDouble := by
  have reads : ∀ x ∈ quotedAndDouble.doubles, x.isFinite = true → x.ReadsBack :=
    List.forall_mem_singleton.2 fun _ => Binary64.readsBack_fiveHalves
  let identifier := Json.tagged "class" (.string "a\"\\\n\x01é")
  let restriction := Json.tagged "data_has_value"
    (.array [.string "p", (Literal.float ⟨0x4004000000000000⟩).toJson])
  have parsed : Json.parse? otherSpelling =
      some (.tagged "intersection" (.array [restriction, identifier])) := rfl
  have literal : Literal.decode? 123 (Literal.float ⟨0x4004000000000000⟩).toJson = some _ :=
    congrArg (Option.map Literal.float) Binary64.readsBack_fiveHalves
  have restricted : decode? 125 restriction = some (dataHas "p" (.float ⟨0x4004000000000000⟩)) :=
    congrArg (Option.bind · fun value => some (dataHas "p" value)) literal
  have operands : [restriction, identifier].mapM (decode? 125) =
      some [dataHas "p" (.float ⟨0x4004000000000000⟩), named "a\"\\\n\x01é"] := by
    rw [List.mapM_cons, restricted]
    rfl
  have read : Json.decodeText? decode? otherSpelling = some quotedAndDouble := by
    rw [Json.decodeText?, parsed]
    exact congrArg (Option.map fun l => intersection (Ascending.ofList l)) operands
  exact ⟨reads, read, (json_round_trip quotedAndDouble reads).2 otherSpelling read⟩

end ClassExpression

end Ontograph
