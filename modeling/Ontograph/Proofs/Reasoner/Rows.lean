import Ontograph.Proofs.Query.Fault
import Ontograph.Proofs.Reasoner.Views

/-!
# Answers from rows

What an answer is made of is in the rows of the reply.  The rows are read one after the other, each of them
has to carry what is read of it (`Reading.Complete`), and the first one that does not is the failure
(`Reading.fault?`).  If all of them do, the answer is the set of what they carry, or the map of sets that
relates what some row carries together (`Reading.Shows`).  There is one such answer for rows in whatever
order and however often they come, since sets and maps ascend and no set in a map is empty
(`Reasoner.shows_unique`).

The values of an individual are read from the node in the first row alone.

Main statement: `Reasoner.answer_from_rows`.
-/

namespace Ontograph

/-! ## Maps -/

namespace Assoc

variable {κ υ : Type} [Ord κ] {m n : List (κ × υ)}

theorem mem_put {key : κ} {value : υ} {e : κ × υ} (h : e ∈ put key value m) :
    e = (key, value) ∨ e ∈ m := by
  induction m with
  | nil => exact .inl (List.mem_singleton.1 h)
  | cons first rest ih =>
      obtain ⟨k, v⟩ := first
      unfold put at h
      split at h
      · exact List.mem_cons.1 h
      · exact (List.mem_cons.1 h).imp_right (List.mem_cons_of_mem _)
      · rcases List.mem_cons.1 h with rfl | later
        · exact .inr List.mem_cons_self
        · exact (ih later).imp_right (List.mem_cons_of_mem _)

variable [Std.TransOrd κ] [Std.LawfulEqOrd κ]

/-- A map with one more entry, or another value for one, is a map. -/
theorem Strict.put (h : Strict m) (key : κ) (value : υ) : Strict (put key value m) := by
  induction m with
  | nil => exact List.pairwise_singleton _ _
  | cons e rest ih =>
      obtain ⟨k, v⟩ := e
      obtain ⟨first, others⟩ := List.pairwise_cons.1 h
      unfold Assoc.put
      split <;> rename_i order
      · refine List.pairwise_cons.2 ⟨List.forall_mem_cons.2 ⟨order, fun e he => ?_⟩, h⟩
        exact Std.TransCmp.lt_trans order (first e he)
      · obtain rfl := Std.LawfulEqOrd.eq_of_compare order
        exact List.pairwise_cons.2 ⟨first, others⟩
      · refine List.pairwise_cons.2 ⟨fun e he => ?_, ih others⟩
        rcases mem_put he with rfl | later
        · exact Std.OrientedCmp.lt_of_gt order
        · exact first e later

/-- Maps that hold the same are equal. -/
theorem Strict.ext (hm : Strict m) (hn : Strict n) (same : ∀ key, find? key m = find? key n) :
    m = n := by
  have irreflexive : ∀ {m : List (κ × υ)}, Strict m → m.Nodup := fun h =>
    h.imp fun before same => absurd before (by simp [same, Std.ReflCmp.compare_self])
  have perm : m.Perm n := by
    rw [List.perm_ext_iff_of_nodup (irreflexive hm) (irreflexive hn)]
    rintro ⟨key, value⟩
    rw [← hm.find?_eq_some_iff, ← hn.find?_eq_some_iff, same]
  refine perm.eq_of_pairwise (fun a b _ _ before after => ?_) hm hn
  have back := Std.OrientedCmp.gt_of_lt after
  rw [before] at back
  cases back

/-- Maps of sets that relate the same are equal. -/
theorem Strict.ext_of_relates {α : Type} [Ord α] [Std.TransOrd α] [Std.LawfulEqOrd α]
    {m n : List (κ × List α)} (hm : Strict m) (hn : Strict n) (gm : Grouped m) (gn : Grouped n)
    (same : ∀ key a, Relates m key a ↔ Relates n key a) : m = n :=
  hm.ext hn fun key => gm.find?_congr gn (same key)

end Assoc

/-! ## Identifiers -/

namespace Value

/-- A value carries an identifier: it is this text, or a node with this text under the identity key. -/
inductive Carries (schema : Schema) : Value → Uri → Prop where
  | string (uri : Uri) : Carries schema (.string uri) uri
  | node {labels : List String} {properties : List (String × Value)} {uri : Uri}
      (held : Assoc.find? schema.identityKey properties = some (.string uri)) :
      Carries schema (.node labels properties) uri

/-- Why a value carries no identifier. -/
def mismatch? (schema : Schema) : Value → Option Mismatch
  | string _ => none
  | node _ properties =>
      match (Assoc.find? schema.identityKey properties).bind text? with
      | some _ => none
      | none => some (.noIdentity schema.identityKey)
  | value => some (.notUri value.kindName)

theorem bind_text?_eq_some {found : Option Value} {s : String} :
    found.bind text? = some s ↔ found = some (.string s) := by
  rcases found with _ | value
  · simp
  · cases value <;> simp [text?]

theorem uri_eq_ok {schema : Schema} {column : String} {value : Value} {uri : Uri} :
    value.uri schema column = .ok uri ↔ value.Carries schema uri := by
  constructor
  · intro h
    unfold Value.uri at h
    split at h
    · cases h
      exact .string _
    · split at h
      · next held =>
          cases h
          exact .node (bind_text?_eq_some.1 held)
      · cases h
    · cases h
  · rintro (_ | held)
    · rfl
    · have text := bind_text?_eq_some.2 held
      simp only [Value.uri, Node.property?, text]

theorem uri_meets (schema : Schema) (column : String) (value : Value) :
    Meets ((value.mismatch? schema).map (.unexpectedValue column)) (value.uri schema column) := by
  cases value with
  | string s => exact .ok s
  | node labels properties =>
      simp only [mismatch?, Value.uri, Node.property?]
      cases (Assoc.find? schema.identityKey properties).bind text? with
      | none => rfl
      | some uri => exact .ok uri
  | _ => rfl

end Value

namespace Row

variable {schema : Schema} {column : String} {row : Row} {uri : Uri}

/-- A row carries an identifier in a column. -/
def Carries (schema : Schema) (row : Row) (column : String) (uri : Uri) : Prop :=
  ∃ value, row.get? column = some value ∧ value.Carries schema uri

/-- The fault of a row that has no such column. -/
def columnFault? (row : Row) (column : String) : Option Failure :=
  match row.get? column with
  | some _ => none
  | none => some (.unexpectedValue column .missing)

/-- The fault of a row that carries no identifier in a column. -/
def uriFault? (schema : Schema) (row : Row) (column : String) : Option Failure :=
  match row.get? column with
  | some value => (value.mismatch? schema).map (.unexpectedValue column)
  | none => some (.unexpectedValue column .missing)

/-- Why there is no node in a column. -/
def nodeMismatch? (row : Row) (column : String) : Option Mismatch :=
  match row.get? column with
  | some (.node _ _) => none
  | some value => some (.notNode value.kindName)
  | none => some .missing

theorem column_meets (row : Row) (column : String) :
    Meets (row.columnFault? column) (row.column column) := by
  unfold columnFault? Row.column
  split <;> simp [*, Meets]

theorem uri_meets (schema : Schema) (row : Row) (column : String) :
    Meets (row.uriFault? schema column) (row.uri schema column) := by
  unfold uriFault? Row.uri Row.column
  cases row.get? column with
  | none => rfl
  | some value => exact value.uri_meets schema column

theorem column_eq_ok {value : Value} : row.column column = .ok value ↔ row.get? column = some value := by
  unfold Row.column
  cases row.get? column <;> simp

theorem uri_eq_ok : row.uri schema column = .ok uri ↔ row.Carries schema column uri := by
  rw [Row.uri, bind_eq_ok]
  simp only [column_eq_ok, Value.uri_eq_ok, Carries]

/-- A row has no fault in a column exactly if it carries an identifier there. -/
theorem uriFault?_eq_none :
    row.uriFault? schema column = none ↔ ∃ uri, row.Carries schema column uri := by
  rw [← (row.uri_meets schema column).ok_iff]
  simp only [uri_eq_ok]

theorem columnFault?_eq_none :
    row.columnFault? column = none ↔ ∃ value, row.get? column = some value := by
  rw [← (row.column_meets column).ok_iff]
  simp only [column_eq_ok]

end Row

/-- The set of the literals of a value is the one that has the literals of the value as its elements. -/
theorem Value.eq_literals_iff {value : Value} {set : List Literal} :
    set = value.literals ↔ Ascending.Strict set ∧ ∀ l, l ∈ set ↔ value.HasLiteral l := by
  constructor
  · rintro rfl
    exact ⟨value.strict_literals, fun _ => mem_literals⟩
  · rintro ⟨strict, elements⟩
    refine strict.ext value.strict_literals fun l => ?_
    rw [elements, mem_literals]

/-! ## Readings -/

/-- How the rows of a reply are read: as the set of the identifiers in a column, as the pairs of the
identifiers in two columns, or as individuals and their values. -/
inductive Reading where
  | set (column : String)
  | links (key target : String)
  | values

/-- How the rows of the reply to a question are read, if the answer is a set or a map of all of them. -/
def Question.reading? : Question → Option Reading
  | classes | objectProperties | dataProperties | dataPropertiesWithRange _ => some (.set Column.uri)
  | subClasses _ | superClasses _ => some (.set Column.uri)
  | subObjectProperties _ | superObjectProperties _ => some (.set Column.uri)
  | subDataProperties _ | superDataProperties _ => some (.set Column.uri)
  | individuals _ => some (.set Column.individual)
  | objectPropertyRelationships _ => some (.links Column.property Column.target)
  | objectPropertyMembers _ => some (.links Column.individual Column.target)
  | dataPropertyMembers _ => some .values
  | _ => none

/-- What is asked is read in some way, if anything is asked. -/
def Plan.Reads {α : Type} (plan : Plan α) (read : List Row → Except Failure α) : Prop :=
  ∀ statement, plan.statement? = some statement → plan = .ask statement read

namespace Plan.Reads

variable {α β : Type} {plan : Plan α} {read : List Row → Except Failure α}

theorem settled (outcome : Except Failure α) : (Plan.settled outcome).Reads read := by
  intro statement asked
  cases asked

theorem map (h : plan.Reads read) (f : α → β) : (plan.map f).Reads fun rows => (read rows).map f := by
  intro statement asked
  cases plan with
  | settled outcome => cases asked
  | ask own _ =>
      cases asked
      cases h _ rfl
      rfl

theorem askText (text : Except Failure String) (parameters : List (String × String)) :
    (Plan.askText text parameters read).Reads read := by
  intro statement asked
  cases text with
  | error failure => cases asked
  | ok text =>
      cases asked
      rfl

/-- What is asked and replied to is read. -/
theorem run {σ : Type} {store : GraphStore σ} {c : Connection σ} {statement : Statement}
    {rows : List Row} (h : plan.Reads read) (asked : plan.statement? = some statement)
    (replied : store.Replies c.state statement rows) : (plan.run store c).1 = read rows := by
  rw [h statement asked]
  exact Plan.run_ask read replied

end Plan.Reads

namespace Reading

/-- Reads rows. -/
def read (r : Reasoner) : Reading → List Row → Except Failure Answer
  | set column, rows => (Row.uris r.schema rows column).map .uris
  | links key target, rows => (Reasoner.group (r.linkOf key target) rows).map .links
  | values, rows => (Reasoner.group r.valuesOf rows).map .values

/-- A row has all that is read of it. -/
def Complete (schema : Schema) (row : Row) : Reading → Prop
  | set column => ∃ uri, row.Carries schema column uri
  | links key target => (∃ uri, row.Carries schema key uri) ∧ ∃ uri, row.Carries schema target uri
  | values => (∃ uri, row.Carries schema Column.individual uri) ∧
      ∃ value, row.get? Column.value = some value

/-- The first fault of a row, in the order in which its columns are read. -/
def fault? (schema : Schema) (row : Row) : Reading → Option Failure
  | set column => row.uriFault? schema column
  | links key target => row.uriFault? schema key <|> row.uriFault? schema target
  | values => row.uriFault? schema Column.individual <|> row.columnFault? Column.value

/-- An answer is what rows show: a set of all identifiers in a column, or a map of sets that relates what
some row has in its columns. -/
def Shows (schema : Schema) (rows : List Row) : Reading → Answer → Prop
  | set column, .uris found => Ascending.Strict found ∧
      ∀ uri, uri ∈ found ↔ ∃ row ∈ rows, row.Carries schema column uri
  | links key target, .links map => Assoc.Strict map ∧ Assoc.Grouped map ∧
      ∀ k t, Assoc.Relates map k t ↔
        ∃ row ∈ rows, row.Carries schema key k ∧ row.Carries schema target t
  | values, .values map => Assoc.Strict map ∧ Assoc.Grouped map ∧
      ∀ k l, Assoc.Relates map k l ↔ ∃ row ∈ rows, row.Carries schema Column.individual k ∧
        ∃ value, row.get? Column.value = some value ∧ value.HasLiteral l
  | _, _ => False

variable {r : Reasoner} {schema : Schema} {row : Row} {rows : List Row} {reading : Reading}

/-- A row has no fault exactly if it has all that is read of it. -/
theorem fault?_eq_none : reading.fault? schema row = none ↔ reading.Complete schema row := by
  cases reading with
  | set column => exact Row.uriFault?_eq_none
  | links key target =>
      rw [fault?, Option.orElse_eq_none, Row.uriFault?_eq_none, Row.uriFault?_eq_none, Complete]
  | values =>
      rw [fault?, Option.orElse_eq_none, Row.uriFault?_eq_none, Row.columnFault?_eq_none, Complete]

end Reading

namespace Reasoner

/-! ## Faults -/

variable (r : Reasoner) {row : Row} {rows : List Row}

theorem linkOf_meets (key target : String) (row : Row) :
    Meets (row.uriFault? r.schema key <|> row.uriFault? r.schema target) (r.linkOf key target row) :=
  (row.uri_meets r.schema key).bind fun _ => (row.uri_meets r.schema target).map

theorem valuesOf_meets (row : Row) :
    Meets (row.uriFault? r.schema Column.individual <|> row.columnFault? Column.value)
      (r.valuesOf row) :=
  (row.uri_meets r.schema Column.individual).bind fun _ => (row.column_meets Column.value).map

/-- Rows are read with the first fault among them. -/
theorem read_meets (reading : Reading) (rows : List Row) :
    Meets (rows.findSome? fun row => reading.fault? r.schema row) (reading.read r rows) := by
  cases reading with
  | set column =>
      have each := Meets.mapM rows fun row => row.uri_meets r.schema column
      exact each.map.map
  | links key target =>
      have each := Meets.mapM rows (r.linkOf_meets key target)
      exact each.map.map
  | values =>
      have each := Meets.mapM rows r.valuesOf_meets
      exact each.map.map

/-! ## Answers -/

theorem linkOf_eq_ok_iff {key target : String} {k : Uri} {set : List Uri} :
    r.linkOf key target row = .ok (k, set) ↔
      row.Carries r.schema key k ∧ ∃ t, row.Carries r.schema target t ∧ set = [t] := by
  simp only [linkOf, bind_eq_ok, Row.uri_eq_ok]
  constructor
  · rintro ⟨_, hk, t, ht, same⟩
    cases same
    exact ⟨hk, t, ht, rfl⟩
  · rintro ⟨hk, t, ht, rfl⟩
    exact ⟨k, hk, t, ht, rfl⟩

theorem valuesOf_eq_ok_iff {k : Uri} {set : List Literal} :
    r.valuesOf row = .ok (k, set) ↔
      row.Carries r.schema Column.individual k ∧
        ∃ value, row.get? Column.value = some value ∧ set = value.literals := by
  simp only [valuesOf, bind_eq_ok, Row.uri_eq_ok, Row.column_eq_ok]
  constructor
  · rintro ⟨_, hk, value, held, same⟩
    cases same
    exact ⟨hk, value, held, rfl⟩
  · rintro ⟨hk, value, held, rfl⟩
    exact ⟨k, hk, value, held, rfl⟩

theorem strict_gather {α : Type} [Ord α] {map : List (Uri × List α)} (h : Assoc.Strict map)
    (entry : Uri × List α) : Assoc.Strict (gather map entry) := by
  unfold gather
  split
  · exact h
  · exact h.put _ _

theorem strict_of_group {α : Type} [Ord α] {read : Row → Except Failure (Uri × List α)}
    {map : List (Uri × List α)} (h : group read rows = .ok map) : Assoc.Strict map := by
  obtain ⟨entries, _, h⟩ := bind_eq_ok.1 h
  cases h
  have kept : ∀ (entries : List (Uri × List α)) {map : List (Uri × List α)}, Assoc.Strict map →
      Assoc.Strict (entries.foldl gather map) := by
    intro entries
    induction entries with
    | nil => exact id
    | cons e rest ih => exact fun h => ih (strict_gather h e)
  exact kept entries .nil

/-- What is read is what the rows show. -/
theorem shows_of_read {reading : Reading} {answer : Answer}
    (h : reading.read r rows = .ok answer) : reading.Shows r.schema rows answer := by
  cases reading with
  | set column =>
      obtain ⟨found, read, h⟩ := bind_eq_ok.1 h
      cases h
      refine ⟨?_, fun uri => ?_⟩
      · obtain ⟨all, _, h⟩ := bind_eq_ok.1 read
        cases h
        exact .ofList all
      · simp only [Row.uris_eq_ok read, Row.uri_eq_ok]
  | links key target =>
      obtain ⟨map, read, h⟩ := bind_eq_ok.1 h
      cases h
      refine ⟨strict_of_group read, grouped_of_group read, fun k t => ?_⟩
      simp only [relates_of_group read, linkOf_eq_ok_iff]
      constructor
      · rintro ⟨row, hr, set, ⟨hk, t, ht, rfl⟩, member⟩
        obtain rfl := List.mem_singleton.1 member
        exact ⟨row, hr, hk, ht⟩
      · rintro ⟨row, hr, hk, ht⟩
        exact ⟨row, hr, [t], ⟨hk, t, ht, rfl⟩, List.mem_singleton.2 rfl⟩
  | values =>
      obtain ⟨map, read, h⟩ := bind_eq_ok.1 h
      cases h
      refine ⟨strict_of_group read, grouped_of_group read, fun k l => ?_⟩
      simp only [relates_of_group read, valuesOf_eq_ok_iff]
      constructor
      · rintro ⟨row, hr, set, ⟨hk, value, held, rfl⟩, member⟩
        exact ⟨row, hr, hk, value, held, Value.mem_literals.1 member⟩
      · rintro ⟨row, hr, hk, value, held, has⟩
        exact ⟨row, hr, _, ⟨hk, value, held, rfl⟩, Value.mem_literals.2 has⟩

/-- Rows show one answer, whatever their order is and however often one of them comes. -/
theorem shows_unique {schema : Schema} {reading : Reading} {rows' : List Row} {a b : Answer}
    (same : ∀ row, row ∈ rows ↔ row ∈ rows') (ha : reading.Shows schema rows a)
    (hb : reading.Shows schema rows' b) : a = b := by
  match reading, a, b, ha, hb with
  | .set _, .uris _, .uris _, ⟨strict, shown⟩, ⟨strict', shown'⟩ =>
      refine congrArg _ (strict.ext strict' fun uri => ?_)
      simp only [shown, shown', same]
  | .links _ _, .links _, .links _, ⟨strict, grouped, shown⟩, ⟨strict', grouped', shown'⟩ =>
      refine congrArg _ (strict.ext_of_relates strict' grouped grouped' fun k t => ?_)
      simp only [shown, shown', same]
  | .values, .values _, .values _, ⟨strict, grouped, shown⟩, ⟨strict', grouped', shown'⟩ =>
      refine congrArg _ (strict.ext_of_relates strict' grouped grouped' fun k l => ?_)
      simp only [shown, shown', same]

/-! ## Plans -/

theorem reads_subClasses (r : Reasoner) (e : ClassExpression) :
    (r.subClasses e).Reads fun rows => Row.uris r.schema rows Column.uri := by
  unfold subClasses
  split
  · exact .settled _
  · split_ifs
    · exact .settled _
    · exact .askText _ _
    · exact .askText _ _

theorem reads_superClasses (r : Reasoner) (e : ClassExpression) :
    (r.superClasses e).Reads fun rows => Row.uris r.schema rows Column.uri := by
  unfold superClasses
  split
  · exact .settled _
  · split_ifs
    · exact .settled _
    · exact .askText _ _

theorem reads_individuals (r : Reasoner) (e : ClassExpression) :
    (r.individuals e).Reads fun rows => Row.uris r.schema rows Column.individual := by
  unfold individuals
  simp only
  split_ifs
  · exact .settled _
  · exact .askText _ _
  · exact .askText _ _

theorem reads_plan (r : Reasoner) {question : Question} {reading : Reading}
    (h : question.reading? = some reading) : (r.plan question).Reads (reading.read r) := by
  cases question <;> cases h
  case subClasses e => exact (r.reads_subClasses e).map _
  case superClasses e => exact (r.reads_superClasses e).map _
  case individuals e => exact (r.reads_individuals e).map _
  all_goals exact Plan.Reads.map (.askText _ _) _

/-! ## The node of an individual -/

/-- The entries of the values of a node are its attributes without a meaning of their own that have
literals. -/
theorem mem_nodeValues {node : Node} {key : Uri} {set : List Literal} :
    (key, set) ∈ r.nodeValues node ↔
      r.schema.isReservedKey key = false ∧ ∃ value, (key, value) ∈ node.properties ∧
        (∃ l, value.HasLiteral l) ∧ Ascending.Strict set ∧ ∀ l, l ∈ set ↔ value.HasLiteral l := by
  simp only [← Value.eq_literals_iff]
  simp only [nodeValues, List.mem_map, List.mem_filter, Bool.and_eq_true, Bool.not_eq_true',
    Prod.mk.injEq, List.isEmpty_eq_false_iff_exists_mem, Value.mem_literals]
  constructor
  · rintro ⟨⟨_, value⟩, ⟨held, free, some⟩, rfl, rfl⟩
    exact ⟨free, value, held, some, rfl⟩
  · rintro ⟨free, value, held, some, rfl⟩
    exact ⟨(key, value), ⟨held, free, some⟩, rfl, rfl⟩

section

variable {σ : Type} {store : GraphStore σ} {c : Connection σ} {individual : Uri}
  {statement : Statement} {rest : List Row}
  (asked : (r.plan (.dataPropertyRelationships individual)).statement? = some statement)

include asked

/-- Without rows there is no such individual. -/
theorem answer_of_no_rows (replied : store.Replies c.state statement []) :
    (r.answer store (.dataPropertyRelationships individual) c).1 = .error (.notFound individual) :=
  Plan.Reads.run (.map (.askText _ _) _) asked replied

/-- A row without a node is not read. -/
theorem answer_of_mismatch (replied : store.Replies c.state statement (row :: rest))
    {mismatch : Mismatch} (h : row.nodeMismatch? Column.individual = some mismatch) :
    (r.answer store (.dataPropertyRelationships individual) c).1 =
      .error (.unexpectedValue Column.individual mismatch) := by
  refine (Plan.Reads.run (.map (.askText _ _) _) asked replied).trans ?_
  unfold Row.nodeMismatch? at h
  cases shown : row.get? Column.individual with
  | none =>
      rw [shown] at h
      cases h
      simp only [Row.column, shown]
      rfl
  | some value =>
      have column := Row.column_eq_ok.2 shown
      rw [shown] at h
      cases value <;> cases h <;> simp only [column] <;> rfl

/-- The node in the first row gives the values. -/
theorem answer_of_node (replied : store.Replies c.state statement (row :: rest)) {node : Node}
    (shown : row.get? Column.individual = some node.toValue) :
    (r.answer store (.dataPropertyRelationships individual) c).1 =
      .ok (.values (r.nodeValues node)) := by
  refine (Plan.Reads.run (.map (.askText _ _) _) asked replied).trans ?_
  simp only [Row.column_eq_ok.2 shown]
  rfl

end

/-! ## Outcomes -/

/-- What an outcome is if it is read from rows: the fault of the first row that has one, or what the rows
show. -/
structure ReadFrom (rows : List Row) (reading : Reading) (outcome : Except Failure Answer) : Prop where
  failed : ∀ failure, outcome = .error failure ↔
    rows.findSome? (fun row => reading.fault? r.schema row) = some failure
  answered : (∃ answer, outcome = .ok answer) ↔ ∀ row ∈ rows, reading.Complete r.schema row
  shown : ∀ answer, outcome = .ok answer → reading.Shows r.schema rows answer

/-- What an outcome is if it is read from the node of an individual in the first row. -/
structure ReadFromNode (rows : List Row) (individual : Uri) (outcome : Except Failure Answer) : Prop where
  unknown : outcome = .error (.notFound individual) ↔ rows = []
  unexpected : (∃ column mismatch, outcome = .error (.unexpectedValue column mismatch)) ↔
    ∃ row rest, rows = row :: rest ∧ ∀ node : Node, row.get? Column.individual ≠ some node.toValue
  mismatched : ∀ row rest mismatch, rows = row :: rest →
    row.nodeMismatch? Column.individual = some mismatch →
      outcome = .error (.unexpectedValue Column.individual mismatch)
  /-- The values are those of the attributes without a meaning of their own that have literals. -/
  answered : ∀ row rest (node : Node), rows = row :: rest →
    row.get? Column.individual = some node.toValue →
      ∃ map, outcome = .ok (.values map) ∧ (Assoc.Strict node.properties → Assoc.Strict map) ∧
        ∀ key set, (key, set) ∈ map ↔
          r.schema.isReservedKey key = false ∧ ∃ value, (key, value) ∈ node.properties ∧
            (∃ l, value.HasLiteral l) ∧ Ascending.Strict set ∧ ∀ l, l ∈ set ↔ value.HasLiteral l

theorem readFrom_read (reading : Reading) (rows : List Row) :
    r.ReadFrom rows reading (reading.read r rows) where
  failed _ := (r.read_meets reading rows).error_iff
  answered := by
    rw [(r.read_meets reading rows).ok_iff, List.findSome?_eq_none_iff]
    simp only [Reading.fault?_eq_none]
  shown _ := r.shows_of_read

/-- Rows with the same elements are read alike, if they are read. -/
theorem read_of_same {reading : Reading} {rows' : List Row} (same : ∀ row, row ∈ rows ↔ row ∈ rows')
    {answer : Answer} (h : reading.read r rows = .ok answer) : reading.read r rows' = .ok answer := by
  have complete := (r.readFrom_read reading rows).answered.1 ⟨answer, h⟩
  obtain ⟨answer', h'⟩ := (r.readFrom_read reading rows').answered.2 fun row hr =>
    complete row ((same row).2 hr)
  obtain rfl := shows_unique same (r.shows_of_read h) (r.shows_of_read h')
  exact h'

theorem nodeMismatch?_cases (row : Row) (column : String) :
    (∃ node : Node, row.get? column = some node.toValue ∧ row.nodeMismatch? column = none) ∨
      (∃ mismatch, row.nodeMismatch? column = some mismatch) ∧
        ∀ node : Node, row.get? column ≠ some node.toValue := by
  unfold Row.nodeMismatch?
  rcases row.get? column with _ | value
  · exact .inr ⟨⟨_, rfl⟩, nofun⟩
  · cases value with
    | node labels properties => exact .inl ⟨⟨labels, properties⟩, rfl, rfl⟩
    | _ => exact .inr ⟨⟨_, rfl⟩, nofun⟩

theorem readFromNode_answer {σ : Type} {store : GraphStore σ} {c : Connection σ} {individual : Uri}
    {statement : Statement}
    (asked : (r.plan (.dataPropertyRelationships individual)).statement? = some statement)
    (replied : store.Replies c.state statement rows) :
    r.ReadFromNode rows individual (r.answer store (.dataPropertyRelationships individual) c).1 := by
  cases rows with
  | nil =>
      rw [r.answer_of_no_rows asked replied]
      exact ⟨by simp, by simp, nofun, nofun⟩
  | cons row rest =>
      rcases nodeMismatch?_cases row Column.individual with
        ⟨node, shown, fine⟩ | ⟨⟨mismatch, wrong⟩, without⟩
      · rw [r.answer_of_node asked replied shown]
        constructor
        case unknown => simp
        case unexpected => simp [shown]
        case mismatched =>
          rintro _ _ _ ⟨⟩ wrong
          cases fine.symm.trans wrong
        case answered =>
          rintro _ _ ⟨labels, properties⟩ ⟨⟩ shown'
          obtain ⟨_, _⟩ := node
          cases shown.symm.trans shown'
          exact ⟨_, rfl, r.strict_nodeValues, fun _ _ => r.mem_nodeValues⟩
      · rw [r.answer_of_mismatch asked replied wrong]
        constructor
        case unknown => simp
        case unexpected => simp [without]
        case mismatched =>
          rintro _ _ _ ⟨⟩ wrong'
          cases wrong.symm.trans wrong'
          rfl
        case answered =>
          rintro _ _ node ⟨⟩ shown
          exact absurd shown (without node)

/-- Rows are read exactly. -/
theorem answer_from_rows (r : Reasoner) {σ : Type} (store : GraphStore σ) (c : Connection σ) :
    (∀ question reading statement rows, question.reading? = some reading →
      (r.plan question).statement? = some statement → store.Replies c.state statement rows →
        r.ReadFrom rows reading (r.answer store question c).1 ∧
        ∀ (c' : Connection σ) rows', store.Replies c'.state statement rows' →
          (∀ row, row ∈ rows ↔ row ∈ rows') → ∀ answer,
            (r.answer store question c).1 = .ok answer ↔ (r.answer store question c').1 = .ok answer) ∧
    ∀ individual statement rows,
      (r.plan (.dataPropertyRelationships individual)).statement? = some statement →
        store.Replies c.state statement rows →
          r.ReadFromNode rows individual (r.answer store (.dataPropertyRelationships individual) c).1 := by
  refine ⟨?_, fun individual statement rows => r.readFromNode_answer⟩
  intro question reading statement rows kind asked replied
  have outcome : ∀ {c : Connection σ} {rows}, store.Replies c.state statement rows →
      (r.answer store question c).1 = reading.read r rows := (r.reads_plan kind).run asked
  rw [outcome replied]
  refine ⟨r.readFrom_read reading rows, fun c' rows' replied' same answer => ?_⟩
  rw [outcome replied']
  exact ⟨r.read_of_same same, r.read_of_same fun row => (same row).symm⟩

/-- Rows of individuals and values: a list with values of all kinds, a node with its identifier, no value,
and one more row for the first individual. -/
def valueRows : List Row :=
  [⟨[(Column.individual, .string "ann"),
      (Column.value, .list [.integer 1, .null, .list [.string "x"], .boolean true, .integer 1])]⟩,
    ⟨[(Column.individual, .node [] [("uri", .string "ben")]), (Column.value, .string "b")]⟩,
    ⟨[(Column.individual, .string "cy"), (Column.value, .list [])]⟩,
    ⟨[(Column.individual, .string "ann"), (Column.value, .string "a")]⟩]

/-- The row of a node with a name, an empty list and a reserved attribute. -/
def nodeRow : Row :=
  ⟨[(Column.individual, .node [] [("name", .string "n"), ("none", .list []), ("uri", .string "ann")])]⟩

/-- A connection to a store that replies with rows to everything. -/
def replying (rows : List Row) : Connection Script :=
  ⟨⟨[⟨none, none, [], .ok rows⟩], none⟩, .empty⟩

theorem replying_replies (rows : List Row) (statement : Statement) :
    Script.store.Replies (replying rows).state statement rows :=
  ⟨_, _, rfl, rfl⟩

theorem answer_from_rows_valueRows :
    ∃ answer values,
      ((ofConfig {}).answer Script.store (.dataPropertyMembers "p") (replying valueRows)).1 =
        .ok (.values answer) ∧
      answer = [("ann", [.integer 1, .string "a", .boolean true]), ("ben", [.string "b"])] ∧
      Reading.values.Shows (ofConfig {}).schema valueRows (.values answer) ∧
      ((ofConfig {}).answer Script.store (.dataPropertyMembers "p") (replying valueRows.reverse)).1 =
        .ok (.values answer) ∧
      ((ofConfig {}).answer Script.store (.dataPropertyRelationships "ann") (replying [nodeRow])).1 =
        .ok (.values values) ∧
      ("name", [.string "n"]) ∈ values := by
  have same : ∀ row, row ∈ valueRows ↔ row ∈ valueRows.reverse := fun _ => List.mem_reverse.symm
  obtain ⟨read, -⟩ := answer_from_rows (ofConfig {}) Script.store (replying valueRows)
  obtain ⟨members, unordered⟩ := read (.dataPropertyMembers "p") .values _ valueRows rfl rfl
    (replying_replies _ _)
  obtain ⟨-, node⟩ := answer_from_rows (ofConfig {}) Script.store (replying [nodeRow])
  obtain ⟨values, answered, -, held⟩ := (node "ann" _ [nodeRow] rfl (replying_replies _ _)).answered
    nodeRow [] ⟨[], _⟩ rfl rfl
  refine ⟨_, values, rfl, rfl, members.shown _ rfl, ?_, answered, ?_⟩
  · exact (unordered (replying valueRows.reverse) valueRows.reverse (replying_replies _ _) same _).1 rfl
  · refine (held _ _).2 ⟨rfl, .string "n", List.mem_cons_self, ⟨.string "n", .inl rfl⟩,
      Value.eq_literals_iff.1 rfl⟩

end Reasoner

end Ontograph
