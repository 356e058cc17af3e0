import Mathlib.Data.List.Dedup
import Ontograph.Proofs.Query.Hygiene
import Ontograph.Proofs.Query.Matching

/-!
# Queries as clauses

A query is a sequence of clauses that are run one after the other on a table.  The table starts as one
empty record, and a record keeps what the variables stand for.

* `CALL` and `UNWIND` give a new variable to each record, once for every element.  It is a fault if the
  variable stands for something already.
* `MATCH` replaces a record by all records that agree with it and match the parts.  Within one `MATCH`
  no edge is used twice.
* `WHERE` keeps the records that meet all conditions.
* `RETURN DISTINCT` keeps one variable and drops duplicates.

It is a fault to read a variable that stands for nothing.  Both kinds of faults depend on the clauses
alone, so that a table lists the variables in scope even where it has no records.

Main statements: `Pattern.render_eq` (the text of a pattern is that of its clauses, one per line) and
`Record.nodup_states` (no edge is used twice within one `MATCH`).
-/

namespace Ontograph

variable {D : Database}

/-! ## Clauses -/

/-- A clause of a query. -/
inductive Clause where
  /-- The variable stands for each member of a class. -/
  | call (cls : Uri) (var : String)
  /-- The variable stands for the list of the members of a class. -/
  | collect (cls : Uri) (var : String)
  /-- The variable stands for each element of a collection. -/
  | unwind (collection : Collection) (var : String)
  /-- The parts are in the graph. -/
  | find (parts : List Part)
  /-- The conditions are met. -/
  | filter (conditions : List Condition)
  /-- The variable is returned. -/
  | distinct (var : String)
deriving DecidableEq

/-- The text of a clause. -/
def Clause.text (schema : Schema) (procedure : String) : Clause → Except Failure String
  | call cls var => .ok (Binding.call schema procedure cls ("YIELD node AS " ++ var))
  | collect cls var => .ok (Binding.collectLine schema procedure ⟨cls, var⟩)
  | unwind collection var => .ok ("UNWIND " ++ collection.text ++ " AS " ++ var)
  | find parts => do
      let texts ← parts.mapM (Part.text schema)
      return "MATCH " ++ ", ".intercalate texts
  | filter conditions => do
      let texts ← conditions.mapM Condition.text
      return "WHERE " ++ " AND ".intercalate texts
  | distinct var => .ok ("RETURN DISTINCT " ++ var)

/-- The clauses of a binding. -/
def Binding.clauses : Binding → List Clause
  | members cls var => [.call cls var]
  | common sets var =>
      sets.map (fun set => .collect set.cls set.var) ++ [.unwind (.ofSets sets) var]

/-- The clauses of a pattern. -/
def Pattern.clauses (q : Pattern) : List Clause :=
  q.bindings.flatMap Binding.clauses ++ q.parts.map (fun part => .find [part])
    ++ (if q.conditions.isEmpty then [] else [.filter q.conditions]) ++ [.distinct q.target]

/-! ### Texts -/

variable {schema : Schema} {procedure : String}

theorem Binding.text_clauses (binding : Binding) :
    binding.clauses.mapM (Clause.text schema procedure) = .ok (binding.lines schema procedure) := by
  cases binding with
  | members cls var => rfl
  | common sets var =>
      have collects : (sets.map fun set => Clause.collect set.cls set.var).mapM
          (Clause.text schema procedure) = .ok (sets.map (collectLine schema procedure)) := by
        rw [List.mapM_map]
        exact mapM_eq_ok_map fun set _ => rfl
      rw [clauses, List.mapM_append, collects, lines, ← Collection.text_ofSets]
      rfl

theorem Binding.text_clauses_flatMap (bindings : List Binding) :
    (bindings.flatMap Binding.clauses).mapM (Clause.text schema procedure) =
      .ok (bindings.flatMap (Binding.lines schema procedure)) := by
  induction bindings with
  | nil => rfl
  | cons b rest ih =>
      rw [List.flatMap_cons, List.mapM_append, b.text_clauses, ih]
      rfl

theorem Part.text_clauses (parts : List Part) :
    (parts.map fun part => Clause.find [part]).mapM (Clause.text schema procedure) =
      parts.mapM (Part.text schema) >>= fun texts => .ok (texts.map ("MATCH " ++ ·)) := by
  induction parts with
  | nil => rfl
  | cons part rest ih =>
      rw [List.map_cons, List.mapM_cons, List.mapM_cons, ih]
      cases h : part.text schema with
      | error failure => simp [Clause.text, h, bind, Except.bind]
      | ok text =>
          have line : Clause.text schema procedure (.find [part]) = .ok ("MATCH " ++ text) := by
            simp [Clause.text, h, pure, Except.pure]
          rw [line]
          cases rest.mapM (Part.text schema) <;> rfl

/-- The text of a pattern is that of its clauses, one per line. -/
theorem Pattern.render_eq (q : Pattern) :
    q.render schema procedure =
      q.clauses.mapM (Clause.text schema procedure) >>= fun lines => .ok ("\n".intercalate lines) := by
  rw [clauses, List.mapM_append, List.mapM_append, List.mapM_append, Binding.text_clauses_flatMap,
    Part.text_clauses, render]
  cases q.parts.mapM (Part.text schema) with
  | error failure => rfl
  | ok parts =>
      cases conditions : q.conditions with
      | nil => rfl
      | cons condition rest =>
          cases texts : (condition :: rest).mapM Condition.text with
          | error failure => simp [Clause.text, texts, bind, Except.bind, pure, Except.pure]
          | ok lines =>
              have nonempty : lines ≠ [] := by
                rintro rfl
                rw [List.mapM_cons] at texts
                obtain ⟨_, _, others⟩ := bind_eq_ok.1 texts
                obtain ⟨_, _, ended⟩ := bind_eq_ok.1 others
                cases ended
              simp [Clause.text, texts, nonempty, bind, Except.bind, pure, Except.pure]

/-! ## Tables -/

/-- What a variable can stand for. -/
inductive Cell (D : Database) where
  | vertex (x : D.Vertex)
  | list (xs : List D.Vertex)
deriving DecidableEq

/-- What the variables stand for. -/
abbrev Record (D : Database) : Type :=
  List (String × Cell D)

/-- Records, and the variables that stand for something in them. -/
structure Table (D : Database) where
  scope : List String
  rows : List (Record D)

/-- Why a clause cannot be run. -/
inductive Fault where
  /-- A variable is bound again. -/
  | bound (var : String)
  /-- A variable that stands for nothing is read. -/
  | unbound (var : String)
deriving DecidableEq

namespace Record

/-- The vertices that variables stand for. -/
def assignment (r : Record D) : Assignment D := fun var =>
  match r.lookup var with
  | some (.vertex x) => some x
  | _ => none

/-- The lists that variables stand for. -/
def lists (r : Record D) : String → Option (List D.Vertex) := fun var =>
  match r.lookup var with
  | some (.list xs) => some xs
  | _ => none

/-- The record in which a variable stands for a vertex, unless it stands for something else. -/
def put? (r : Record D) (var : String) (x : D.Vertex) : Option (Record D) :=
  match r.lookup var with
  | none => some (r ++ [(var, .vertex x)])
  | some cell => if cell = .vertex x then some r else none

/-- The records in which the ends of an edge of a type agree with a record, for each edge not used yet,
together with the edges used then. -/
def cross (r : Record D) (used : List (Fin D.graph.size)) (source : String) (relation : Uri)
    (target : String) : List (Record D × List (Fin D.graph.size)) :=
  (List.finRange D.graph.size).filterMap fun i =>
    if i ∉ used ∧ (D.graph.edge i).relation = relation then
      (r.put? source (D.graph.edge i).source).bind fun r =>
        (r.put? target (D.graph.edge i).target).map fun r => (r, i :: used)
    else none

end Record

/-- The records that agree with a record and match a part, without the edges used before. -/
def Part.extend (r : Record D) (used : List (Fin D.graph.size)) :
    Part → List (Record D × List (Fin D.graph.size))
  | node var labels =>
      (List.finRange D.graph.order).filterMap fun x =>
        if labels.all (D.graph.node x).hasLabel then (r.put? var x).map fun r => (r, used) else none
  | edge source relation target => r.cross used source relation target
  | valueEdge source relation target individual =>
      (r.cross used source relation target).filter fun s =>
        (s.1.assignment target).any fun y => (D.graph.node y).isNamed D.schema.identityKey individual

namespace Record

/-- The records that agree with a record and match parts, together with the edges used for them. -/
def states (r : Record D) (parts : List Part) : List (Record D × List (Fin D.graph.size)) :=
  parts.foldl (fun states part => states.flatMap fun s => part.extend s.1 s.2) [(r, [])]

/-- The records that agree with a record and match parts. -/
def extendAll (r : Record D) (parts : List Part) : List (Record D) :=
  (r.states parts).map Prod.fst

theorem nodup_cross {r : Record D} {used : List (Fin D.graph.size)} {source target : String}
    {relation : Uri} (distinct : used.Nodup) :
    ∀ s ∈ r.cross used source relation target, s.2.Nodup := by
  intro s hs
  obtain ⟨i, _, crossed⟩ := List.mem_filterMap.1 hs
  split at crossed
  · next fits =>
      obtain ⟨r₁, _, crossed⟩ := Option.bind_eq_some_iff.1 crossed
      obtain ⟨r₂, _, rfl⟩ := Option.map_eq_some_iff.1 crossed
      exact List.nodup_cons.2 ⟨fits.1, distinct⟩
  · cases crossed

theorem nodup_extend {r : Record D} {used : List (Fin D.graph.size)} (part : Part)
    (distinct : used.Nodup) : ∀ s ∈ part.extend r used, s.2.Nodup := by
  intro s hs
  cases part with
  | node var labels =>
      obtain ⟨x, _, found⟩ := List.mem_filterMap.1 hs
      split at found
      · obtain ⟨r', _, rfl⟩ := Option.map_eq_some_iff.1 found
        exact distinct
      · cases found
  | edge source relation target => exact nodup_cross distinct s hs
  | valueEdge source relation target individual =>
      exact nodup_cross distinct s (List.mem_filter.1 hs).1

/-- Within one `MATCH` no edge is used twice. -/
theorem nodup_states (r : Record D) (parts : List Part) : ∀ s ∈ r.states parts, s.2.Nodup := by
  have fold : ∀ (parts : List Part) (states : List (Record D × List (Fin D.graph.size))),
      (∀ s ∈ states, s.2.Nodup) →
      ∀ s ∈ parts.foldl (fun states part => states.flatMap fun s => part.extend s.1 s.2) states,
        s.2.Nodup := by
    intro parts
    induction parts with
    | nil => exact fun _ distinct => distinct
    | cons part rest ih =>
        intro states distinct
        refine ih _ fun s hs => ?_
        obtain ⟨before, hb, hs⟩ := List.mem_flatMap.1 hs
        exact nodup_extend part (distinct before hb) s hs
  exact fold parts _ (List.forall_mem_singleton.2 List.nodup_nil)

end Record

namespace Table

/-- The table with one record that says nothing. -/
def unit : Table D := ⟨[], [[]]⟩

/-- Gives a new variable to each record, once for each of some cells. -/
def bind (t : Table D) (var : String) (cells : Record D → List (Cell D)) :
    Except Fault (Table D) :=
  if var ∈ t.scope then .error (.bound var)
  else .ok ⟨t.scope ++ [var], t.rows.flatMap fun r => (cells r).map fun cell => r ++ [(var, cell)]⟩

/-- Makes sure that variables stand for something. -/
def reading (t : Table D) (vars : List String) : Except Fault Unit :=
  match vars.find? (· ∉ t.scope) with
  | some var => .error (.unbound var)
  | none => .ok ()

/-- What a variable stands for, record by record. -/
def column (t : Table D) (var : String) : List (Cell D) :=
  t.rows.filterMap fun r => r.lookup var

end Table

namespace Clause

/-- Runs a clause.  A collection without a value has no elements. -/
def step (P : Procedures D) (t : Table D) : Clause → Except Fault (Table D)
  | call cls var => t.bind var fun _ => (P.members cls).map .vertex
  | collect cls var => t.bind var fun _ => [.list (P.members cls)]
  | unwind collection var => do
      t.reading collection.vars
      t.bind var fun r => ((collection.eval P r.lists).getD []).map .vertex
  | find parts =>
      .ok ⟨t.scope ++ parts.flatMap Part.vars, t.rows.flatMap fun r => r.extendAll parts⟩
  | filter conditions => do
      t.reading (conditions.flatMap Condition.vars)
      return { t with rows := t.rows.filter fun r => conditions.all (·.holds D r.assignment) }
  | distinct var => do
      t.reading [var]
      return ⟨[var], ((t.column var).map fun cell => [(var, cell)]).dedup⟩

/-- Runs clauses one after the other. -/
def run (P : Procedures D) (clauses : List Clause) (t : Table D) : Except Fault (Table D) :=
  clauses.foldlM (step P) t

end Clause

end Ontograph
