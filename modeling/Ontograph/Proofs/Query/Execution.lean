import Ontograph.Proofs.Query.Clause
import Ontograph.Proofs.Query.Exactness
import Ontograph.Proofs.Query.Fragment

/-!
# Running queries

The clauses of a pattern, run one after the other, return its answers.

After each binding and each `MATCH` the table holds exactly the records that were asked for so far
(`Table.Computes`): what a record says satisfies the bindings and the parts that were run, and every
assignment that satisfies them is what some record says or more.  The next clause keeps this if a name
that it binds is in no record, and if no list stands where it asks for a vertex.  Both hold as long as
the names of a pattern are in order.

Main statement: `Compiler.clauses_compute_pattern`.
-/

namespace Ontograph

variable {D : Database} {P : Procedures D} {σ : Assignment D}

/-! ## Records -/

namespace Record

variable {r r' r'' : Record D} {var : String} {x : D.Vertex}

theorem assignment_eq_some : r.assignment var = some x ↔ r.lookup var = some (.vertex x) := by
  unfold assignment
  split
  · next found => simp [found]
  · next notVertex => simpa using notVertex x

theorem lists_eq_some {xs : List D.Vertex} :
    r.lists var = some xs ↔ r.lookup var = some (.list xs) := by
  unfold lists
  split
  · next found => simp [found]
  · next notList => simpa using notList xs

/-- One record says what another says, and lets some variables stand for vertices besides. -/
structure Refines (vars : List String) (r r' : Record D) : Prop where
  kept : ∀ v cell, r.lookup v = some cell → r'.lookup v = some cell
  added : ∀ v cell, r'.lookup v = some cell →
    r.lookup v = some cell ∨ v ∈ vars ∧ ∃ x, cell = .vertex x

namespace Refines

variable {vars more : List String}

theorem refl (r : Record D) : r.Refines vars r :=
  ⟨fun _ _ h => h, fun _ _ h => .inl h⟩

theorem trans (first : r.Refines vars r') (second : r'.Refines more r'') :
    r.Refines (vars ++ more) r'' := by
  refine ⟨fun v cell h => second.kept v cell (first.kept v cell h), fun v cell h => ?_⟩
  rcases second.added v cell h with old | ⟨hv, vertex⟩
  · exact (first.added v cell old).imp_right fun ⟨hv, vertex⟩ =>
      ⟨List.mem_append_left _ hv, vertex⟩
  · exact .inr ⟨List.mem_append_right _ hv, vertex⟩

theorem within (h : r.Refines vars r') : r.assignment.Within r'.assignment :=
  fun v _ hv => assignment_eq_some.2 (h.kept v _ (assignment_eq_some.1 hv))

/-- A variable that does not stand for a list still does not. -/
theorem not_list (h : r.Refines vars r') (before : ∀ xs, r.lookup var ≠ some (.list xs)) :
    ∀ xs, r'.lookup var ≠ some (.list xs) := by
  intro xs after
  rcases h.added var _ after with old | ⟨_, x, vertex⟩
  · exact before xs old
  · cases vertex

end Refines

/-- A record with one more entry says what it said before and, for a free variable, the new cell. -/
theorem lookup_push {v : String} {cell new : Cell D} :
    (r ++ [(var, new)]).lookup v = some cell ↔
      r.lookup v = some cell ∨ r.lookup v = none ∧ v = var ∧ cell = new := by
  rw [List.lookup_append, Option.or_eq_some_iff, List.lookup_cons]
  cases same : v == var with
  | false => simp [beq_eq_false_iff_ne.1 same]
  | true =>
      simp only [eq_of_beq same, Option.some.injEq, true_and]
      exact or_congr_right (and_congr_right fun _ => eq_comm)

theorem Refines.push (r : Record D) (var : String) (x : D.Vertex) :
    r.Refines [var] (r ++ [(var, .vertex x)]) := by
  refine ⟨fun v cell h => lookup_push.2 (.inl h), fun v cell h => ?_⟩
  exact (lookup_push.1 h).imp_right fun ⟨_, same, vertex⟩ => ⟨List.mem_singleton.2 same, x, vertex⟩

/-- A variable stands for a vertex after it was put there. -/
theorem put?_eq_some (h : r.put? var x = some r') :
    r.Refines [var] r' ∧ r'.assignment var = some x := by
  unfold put? at h
  split at h
  · next free =>
      cases h
      exact ⟨.push r var x, assignment_eq_some.2 (lookup_push.2 (.inr ⟨free, rfl, rfl⟩))⟩
  · next cell found =>
      split at h
      · next same =>
          cases h
          exact ⟨.refl r, assignment_eq_some.2 (same ▸ found)⟩
      · cases h

/-- A vertex can be put where an assignment has it. -/
theorem exists_put? (within : r.assignment.Within σ) (hx : σ var = some x)
    (free : ∀ xs, r.lookup var ≠ some (.list xs)) :
    ∃ r', r.put? var x = some r' ∧ r'.assignment.Within σ := by
  unfold put?
  cases found : r.lookup var with
  | none =>
      refine ⟨_, rfl, fun v y hy => ?_⟩
      rcases lookup_push.1 (assignment_eq_some.1 hy) with old | ⟨_, rfl, new⟩
      · exact within v y (assignment_eq_some.2 old)
      · cases new
        exact hx
  | some cell =>
      cases cell with
      | list xs => exact absurd found (free xs)
      | vertex y =>
          have same := within var y (assignment_eq_some.2 found)
          obtain rfl := Option.some.inj (same.symm.trans hx)
          exact ⟨r, by simp, within⟩

/-- A crossed edge is in the graph and agrees with the record. -/
theorem mem_cross {used : List (Fin D.graph.size)} {source target : String} {relation : Uri}
    {s : Record D × List (Fin D.graph.size)} (h : s ∈ r.cross used source relation target) :
    r.Refines [source, target] s.1 ∧
      ∃ x y, s.1.assignment source = some x ∧ s.1.assignment target = some y ∧
        D.graph.Adjacent x relation y := by
  obtain ⟨i, _, crossed⟩ := List.mem_filterMap.1 h
  split at crossed
  · next fits =>
      obtain ⟨r₁, first, crossed⟩ := Option.bind_eq_some_iff.1 crossed
      obtain ⟨r₂, second, rfl⟩ := Option.map_eq_some_iff.1 crossed
      obtain ⟨refined₁, hx⟩ := put?_eq_some first
      obtain ⟨refined₂, hy⟩ := put?_eq_some second
      have edge : D.graph.edge i =
          ⟨(D.graph.edge i).source, relation, (D.graph.edge i).target⟩ := by
        rw [← fits.2]
      exact ⟨refined₁.trans refined₂, _, _, refined₂.within _ _ hx, hy, i, edge⟩
  · cases crossed

/-- An edge that an assignment has is crossed. -/
theorem exists_mem_cross {source target : String} {relation : Uri} {y : D.Vertex}
    (within : r.assignment.Within σ) (hx : σ source = some x) (hy : σ target = some y)
    (adjacent : D.graph.Adjacent x relation y)
    (free : ∀ v ∈ [source, target], ∀ xs, r.lookup v ≠ some (.list xs)) :
    ∃ s ∈ r.cross [] source relation target, s.1.assignment.Within σ := by
  obtain ⟨i, edge⟩ := adjacent
  obtain ⟨freeSource, freeTarget⟩ := List.forall_mem_cons.1 free
  obtain ⟨r₁, first, within₁⟩ := exists_put? within hx freeSource
  have refined := (put?_eq_some first).1
  obtain ⟨r₂, second, within₂⟩ :=
    exists_put? within₁ hy (refined.not_list (List.forall_mem_singleton.1 freeTarget))
  refine ⟨(r₂, [i]), List.mem_filterMap.2 ⟨i, List.mem_finRange i, ?_⟩, within₂⟩
  simp [edge, first, second]

end Record

/-! ## Matching one part -/

namespace Part

variable {r : Record D} {part : Part}

theorem extendAll_singleton : r.extendAll [part] = (part.extend r []).map Prod.fst := by
  simp [Record.extendAll, Record.states]

/-- A record found for a part says that the part is in the graph. -/
theorem holds_of_mem_extend {used : List (Fin D.graph.size)}
    {s : Record D × List (Fin D.graph.size)} (h : s ∈ part.extend r used) :
    r.Refines part.vars s.1 ∧ part.Holds D s.1.assignment := by
  cases part with
  | node var labels =>
      obtain ⟨x, _, found⟩ := List.mem_filterMap.1 h
      split at found
      · next labelled =>
          obtain ⟨r', put, rfl⟩ := Option.map_eq_some_iff.1 found
          obtain ⟨refined, hx⟩ := Record.put?_eq_some put
          exact ⟨refined, x, hx, List.all_eq_true.1 labelled⟩
      · cases found
  | edge source relation target => exact Record.mem_cross h
  | valueEdge source relation target individual =>
      obtain ⟨crossed, named⟩ := List.mem_filter.1 h
      obtain ⟨refined, x, y, hx, hy, adjacent⟩ := Record.mem_cross crossed
      rw [hy] at named
      exact ⟨refined, x, y, hx, hy, adjacent, named⟩

/-- Where an assignment has a part, a record is found for it. -/
theorem exists_mem_extend (within : r.assignment.Within σ) (h : part.Holds D σ)
    (free : ∀ v ∈ part.vars, ∀ xs, r.lookup v ≠ some (.list xs)) :
    ∃ s ∈ part.extend r [], s.1.assignment.Within σ := by
  cases part with
  | node var labels =>
      obtain ⟨x, hx, labelled⟩ := h
      obtain ⟨r', put, within'⟩ :=
        Record.exists_put? within hx (List.forall_mem_singleton.1 free)
      refine ⟨(r', []), List.mem_filterMap.2 ⟨x, List.mem_finRange x, ?_⟩, within'⟩
      rw [if_pos (List.all_eq_true.2 labelled), put]
      rfl
  | edge source relation target =>
      obtain ⟨x, y, hx, hy, adjacent⟩ := h
      exact Record.exists_mem_cross within hx hy adjacent free
  | valueEdge source relation target individual =>
      obtain ⟨x, y, hx, hy, adjacent, named⟩ := h
      obtain ⟨s, crossed, within'⟩ := Record.exists_mem_cross within hx hy adjacent free
      refine ⟨s, List.mem_filter.2 ⟨crossed, ?_⟩, within'⟩
      obtain ⟨_, _, y', _, hy', _⟩ := Record.mem_cross crossed
      obtain rfl := Option.some.inj ((within' _ _ hy').symm.trans hy)
      rw [hy']
      exact named

end Part

/-! ## Running bindings -/

namespace Table

variable {t : Table D}

theorem bind_new {var : String} {cells : Record D → List (Cell D)} (new : var ∉ t.scope) :
    t.bind var cells =
      .ok ⟨t.scope ++ [var], t.rows.flatMap fun r => (cells r).map fun cell => r ++ [(var, cell)]⟩ :=
  if_neg new

theorem reading_ok {vars : List String} (bound : ∀ v ∈ vars, v ∈ t.scope) :
    t.reading vars = .ok () := by
  have none : vars.find? (· ∉ t.scope) = none := List.find?_eq_none.2 (by simpa using bound)
  rw [reading, none]

end Table

namespace Clause

theorem run_cons (clause : Clause) (rest : List Clause) (t : Table D) :
    run P (clause :: rest) t = clause.step P t >>= run P rest := rfl

theorem run_append (first second : List Clause) (t : Table D) :
    run P (first ++ second) t = run P first t >>= run P second :=
  List.foldlM_append

/-- Collecting sets adds one list for each to every record. -/
theorem run_collect {sets : List MemberSet} {t : Table D} (distinct : (sets.map MemberSet.var).Nodup)
    (new : ∀ set ∈ sets, set.var ∉ t.scope) :
    run P (sets.map fun set => .collect set.cls set.var) t =
      .ok ⟨t.scope ++ sets.map MemberSet.var,
        t.rows.map fun r => r ++ sets.map fun set => (set.var, .list (P.members set.cls))⟩ := by
  induction sets generalizing t with
  | nil => simp [run, pure, Except.pure]
  | cons set rest ih =>
      obtain ⟨apart, distinctRest⟩ := List.nodup_cons.1 distinct
      obtain ⟨newSet, newRest⟩ := List.forall_mem_cons.1 new
      rw [List.map_cons, run_cons, step, Table.bind_new newSet, ok_bind, ih distinctRest]
      · simp [← List.map_eq_flatMap]
      · intro other ho inScope
        rcases List.mem_append.1 inScope with old | new
        · exact newRest other ho old
        · exact apart (List.mem_singleton.1 new ▸ List.mem_map_of_mem ho)

end Clause

namespace Binding

/-- What a binding adds to a record before its variable. -/
def cells (P : Procedures D) : Binding → Record D
  | members _ _ => []
  | common sets _ => sets.map fun set => (set.var, .list (P.members set.cls))

theorem lookup_cells {binding : Binding} {v : String} {cell : Cell D}
    (h : (binding.cells P).lookup v = some cell) :
    v ∈ binding.setVars ∧ ∃ xs, cell = .list xs := by
  obtain ⟨before, after, split, _⟩ := List.lookup_eq_some_iff.1 h
  have entry : (v, cell) ∈ binding.cells P := by simp [split]
  cases binding with
  | members cls var => exact absurd entry List.not_mem_nil
  | common sets var =>
      obtain ⟨set, hs, same⟩ := List.mem_map.1 entry
      cases same
      exact ⟨List.mem_map_of_mem hs, _, rfl⟩

/-- What a binding makes of a record for one vertex. -/
def extend (P : Procedures D) (binding : Binding) (r : Record D) (x : D.Vertex) : Record D :=
  (r ++ binding.cells P) ++ [(binding.var, .vertex x)]

variable {binding : Binding} {r : Record D} {x : D.Vertex}

/-- What is found afterwards was there before, is a set, or is the vertex. -/
theorem lookup_extend {v : String} {cell : Cell D} (h : (binding.extend P r x).lookup v = some cell) :
    r.lookup v = some cell ∨ (v ∈ binding.setVars ∧ ∃ xs, cell = .list xs) ∨
      v = binding.var ∧ cell = .vertex x := by
  rcases Record.lookup_push.1 h with old | ⟨_, same, new⟩
  · rw [List.lookup_append] at old
    rcases Option.or_eq_some_iff.1 old with older | ⟨_, set⟩
    · exact .inl older
    · exact .inr (.inl (lookup_cells set))
  · exact .inr (.inr ⟨same, new⟩)

theorem within_extend : r.assignment.Within (binding.extend P r x).assignment := by
  intro v y hy
  rw [Record.assignment_eq_some, extend, Record.lookup_push, List.lookup_append,
    Record.assignment_eq_some.1 hy]
  exact .inl rfl

theorem assignment_extend_var (free : r.lookup binding.var = none)
    (apart : binding.var ∉ binding.setVars) :
    (binding.extend P r x).assignment binding.var = some x := by
  have noSet : (binding.cells P).lookup binding.var = none :=
    Option.eq_none_iff_forall_not_mem.2 fun cell found => apart (lookup_cells found).1
  rw [Record.assignment_eq_some, extend, Record.lookup_push, List.lookup_append, free, noSet]
  exact .inr ⟨rfl, rfl, rfl⟩

/-- The clauses of a binding extend each record by the sets and by each element in turn. -/
theorem run_clauses {t : Table D} (distinct : binding.introduced.Nodup)
    (new : ∀ v ∈ binding.introduced, v ∉ t.scope)
    (free : ∀ r ∈ t.rows, ∀ v ∈ binding.setVars, r.lookup v = none) :
    Clause.run P binding.clauses t =
      .ok ⟨t.scope ++ binding.introduced, t.rows.flatMap fun r => (binding.elements P).map fun x =>
        binding.extend P r x⟩ := by
  cases binding with
  | members cls var =>
      have newVar : var ∉ t.scope := new var (List.mem_singleton.2 rfl)
      rw [clauses, Clause.run_cons, Clause.step, Table.bind_new newVar]
      simp [Clause.run, introduced, setVars, Binding.var, elements, cells, extend, pure,
        Except.pure, Function.comp_def]
  | common sets var =>
      obtain ⟨distinctSets, _, apart⟩ := List.nodup_append.1 distinct
      have newSets : ∀ set ∈ sets, set.var ∉ t.scope :=
        fun set hs => new _ (List.mem_append_left _ (List.mem_map_of_mem hs))
      have newVar : var ∉ t.scope ++ sets.map MemberSet.var := by
        intro taken
        rcases List.mem_append.1 taken with old | set
        · exact new var List.mem_concat_self old
        · exact apart var set var (List.mem_singleton.2 rfl) rfl
      have bound : ∀ v ∈ (Collection.ofSets sets).vars, v ∈ t.scope ++ sets.map MemberSet.var :=
        fun v hv => List.mem_append_right _ (Collection.vars_ofSets sets ▸ hv)
      -- In every record the names stand for the sets that the binding means.
      have value : ∀ r ∈ t.rows, (Collection.ofSets sets).eval P
          (Record.lists (r ++ sets.map fun set => (set.var, Cell.list (P.members set.cls)))) =
            (Collection.ofSets sets).eval P (MemberSet.lists P sets) := by
        intro r hr
        refine Collection.eval_congr fun v hv => ?_
        rw [Collection.vars_ofSets] at hv
        obtain ⟨set, hs, rfl⟩ := List.mem_map.1 hv
        rw [MemberSet.lists_eq distinctSets hs, Record.lists_eq_some, List.lookup_append,
          free r hr _ hv, Option.none_or]
        refine lookup_of_mem ?_ (List.mem_map_of_mem hs)
        rwa [List.map_map]
      rw [clauses, Clause.run_append, Clause.run_collect distinctSets newSets, ok_bind,
        Clause.run_cons, Clause.step, Table.reading_ok bound, ok_bind, Table.bind_new newVar, ok_bind]
      refine congrArg Except.ok (congrArg₂ Table.mk (List.append_assoc ..) ?_)
      rw [List.flatMap_map]
      refine List.flatMap_congr fun r hr => ?_
      rw [value r hr, List.map_map]
      rfl

end Binding

/-! ## What a table computes -/

namespace Table

/-- After some bindings and parts a table has their names in scope, and its records are the assignments
that satisfy them. -/
structure Computes (P : Procedures D) (bindings : List Binding) (parts : List Part) (t : Table D) :
    Prop where
  scope : ∀ v, v ∈ t.scope ↔
    (∃ b ∈ bindings, v ∈ b.introduced) ∨ ∃ part ∈ parts, v ∈ part.vars
  vertices : ∀ r ∈ t.rows, ∀ v x, r.lookup v = some (.vertex x) →
    (∃ b ∈ bindings, v = b.var) ∨ ∃ part ∈ parts, v ∈ part.vars
  lists : ∀ r ∈ t.rows, ∀ v xs, r.lookup v = some (.list xs) → ∃ b ∈ bindings, v ∈ b.setVars
  sound : ∀ r ∈ t.rows, r.assignment.Satisfies P bindings parts []
  complete : ∀ σ : Assignment D, σ.Satisfies P bindings parts [] →
    ∃ r ∈ t.rows, r.assignment.Within σ

namespace Computes

variable {bindings : List Binding} {parts : List Part} {t : Table D}

theorem unit : (Table.unit : Table D).Computes P [] [] where
  scope := by simp [Table.unit]
  vertices := by simp [Table.unit]
  lists := by simp [Table.unit]
  sound := fun _ _ => ⟨by simp, by simp, by simp⟩
  complete := fun _ _ => ⟨[], List.mem_singleton.2 rfl, fun _ _ h => by cases h⟩

/-- Nothing stands for anything outside the scope. -/
theorem lookup_eq_none (c : t.Computes P bindings parts) {r : Record D} (hr : r ∈ t.rows)
    {v : String} (new : v ∉ t.scope) : r.lookup v = none := by
  rw [Option.eq_none_iff_forall_not_mem]
  intro cell found
  refine new ((c.scope v).2 ?_)
  cases cell with
  | vertex x =>
      refine (c.vertices r hr v x found).imp_left fun ⟨b, hb, same⟩ => ⟨b, hb, ?_⟩
      exact List.mem_append_right _ (List.mem_singleton.2 same)
  | list xs =>
      obtain ⟨b, hb, hv⟩ := c.lists r hr v xs found
      exact .inl ⟨b, hb, List.mem_append_left _ hv⟩

/-- One more binding is computed by its clauses, if its names are new. -/
theorem bind (c : t.Computes P bindings []) {b : Binding} (distinct : b.introduced.Nodup)
    (new : ∀ v ∈ b.introduced, v ∉ t.scope) :
    ∃ t', Clause.run P b.clauses t = .ok t' ∧ t'.Computes P (bindings ++ [b]) [] := by
  have free : ∀ r ∈ t.rows, ∀ v ∈ b.introduced, r.lookup v = none :=
    fun r hr v hv => c.lookup_eq_none hr (new v hv)
  have freeSets : ∀ r ∈ t.rows, ∀ v ∈ b.setVars, r.lookup v = none :=
    fun r hr v hv => free r hr v (List.mem_append_left _ hv)
  have apart : b.var ∉ b.setVars := by
    obtain ⟨_, _, apart⟩ := List.nodup_append.1 distinct
    exact fun taken => apart b.var taken b.var (List.mem_singleton.2 rfl) rfl
  have extended : ∀ {Q : Record D → Prop},
      (∀ r ∈ t.rows, ∀ x ∈ b.elements P, Q (b.extend P r x)) →
      ∀ r ∈ t.rows.flatMap fun r => (b.elements P).map fun x => b.extend P r x, Q r := by
    intro Q all r' hr'
    obtain ⟨r, hr, hmap⟩ := List.mem_flatMap.1 hr'
    obtain ⟨x, hx, rfl⟩ := List.mem_map.1 hmap
    exact all r hr x hx
  refine ⟨_, Binding.run_clauses distinct new freeSets, ?_, ?_, ?_, ?_, ?_⟩
  · intro v
    simp [c.scope, or_and_right, exists_or]
  · refine extended fun r hr x _ v y found => ?_
    rcases Binding.lookup_extend found with old | ⟨_, xs, list⟩ | ⟨same, _⟩
    · exact (c.vertices r hr v y old).imp_left fun ⟨b, hb, same⟩ =>
        ⟨b, List.mem_append_left _ hb, same⟩
    · cases list
    · exact .inl ⟨b, List.mem_concat_self, same⟩
  · refine extended fun r hr x _ v xs found => ?_
    rcases Binding.lookup_extend found with old | ⟨hv, _⟩ | ⟨_, vertex⟩
    · obtain ⟨b, hb, hv⟩ := c.lists r hr v xs old
      exact ⟨b, List.mem_append_left _ hb, hv⟩
    · exact ⟨b, List.mem_concat_self, hv⟩
    · cases vertex
  · refine extended fun r hr x hx => Assignment.satisfies_push_binding.2 ?_
    have var := Binding.assignment_extend_var (P := P) (x := x)
      (free r hr b.var List.mem_concat_self) apart
    exact ⟨(c.sound r hr).mono Binding.within_extend, x, var, hx⟩
  · intro σ satisfied
    obtain ⟨before, x, hx, member⟩ := Assignment.satisfies_push_binding.1 satisfied
    obtain ⟨r, hr, within⟩ := c.complete σ before
    refine ⟨b.extend P r x, List.mem_flatMap.2 ⟨r, hr, List.mem_map_of_mem member⟩, fun v y hy => ?_⟩
    rcases Binding.lookup_extend (Record.assignment_eq_some.1 hy) with
      old | ⟨_, xs, list⟩ | ⟨rfl, vertex⟩
    · exact within v y (Record.assignment_eq_some.2 old)
    · cases list
    · cases vertex
      exact hx

/-- One more part is computed by its `MATCH`, if no name for a set is in it. -/
theorem find (c : t.Computes P bindings parts) {part : Part}
    (apart : ∀ b ∈ bindings, ∀ v ∈ b.setVars, v ∉ part.vars) :
    ∃ t', Clause.step P t (.find [part]) = .ok t' ∧ t'.Computes P bindings (parts ++ [part]) := by
  have found : ∀ {r' : Record D}, r' ∈ (t.rows.flatMap fun r => r.extendAll [part]) →
      ∃ r ∈ t.rows, r.Refines part.vars r' ∧ part.Holds D r'.assignment := by
    intro r' hr'
    obtain ⟨r, hr, hmap⟩ := List.mem_flatMap.1 hr'
    rw [Part.extendAll_singleton] at hmap
    obtain ⟨s, hs, rfl⟩ := List.mem_map.1 hmap
    exact ⟨r, hr, Part.holds_of_mem_extend hs⟩
  refine ⟨_, rfl, ?_, ?_, ?_, ?_, ?_⟩
  · intro v
    simp [c.scope, or_and_right, exists_or, or_assoc]
  · intro r' hr' v x hx
    obtain ⟨r, hr, refined, _⟩ := found hr'
    rcases refined.added v _ hx with old | ⟨hv, _⟩
    · exact (c.vertices r hr v x old).imp_right fun ⟨p, hp, inside⟩ =>
        ⟨p, List.mem_append_left _ hp, inside⟩
    · exact .inr ⟨part, List.mem_concat_self, hv⟩
  · intro r' hr' v xs hxs
    obtain ⟨r, hr, refined, _⟩ := found hr'
    rcases refined.added v _ hxs with old | ⟨_, x, vertex⟩
    · exact c.lists r hr v xs old
    · cases vertex
  · intro r' hr'
    obtain ⟨r, hr, refined, holds⟩ := found hr'
    exact Assignment.satisfies_push_part.2 ⟨(c.sound r hr).mono refined.within, holds⟩
  · intro σ satisfied
    obtain ⟨before, holds⟩ := Assignment.satisfies_push_part.1 satisfied
    obtain ⟨r, hr, within⟩ := c.complete σ before
    have free : ∀ v ∈ part.vars, ∀ xs, r.lookup v ≠ some (.list xs) := by
      intro v hv xs list
      obtain ⟨b, hb, taken⟩ := c.lists r hr v xs list
      exact apart b hb v taken hv
    obtain ⟨s, hs, within'⟩ := Part.exists_mem_extend within holds free
    refine ⟨s.1, List.mem_flatMap.2 ⟨r, hr, ?_⟩, within'⟩
    rw [Part.extendAll_singleton]
    exact List.mem_map_of_mem hs

/-! ### Runs -/

/-- All bindings are computed by their clauses, if they introduce different names. -/
theorem run_bindings (c : t.Computes P bindings []) {more : List Binding}
    (distinct : ((bindings ++ more).flatMap Binding.introduced).Nodup) :
    ∃ t', Clause.run P (more.flatMap Binding.clauses) t = .ok t' ∧
      t'.Computes P (bindings ++ more) [] := by
  induction more generalizing bindings t with
  | nil => exact ⟨t, rfl, by rwa [List.append_nil]⟩
  | cons b rest ih =>
      have apart := distinct
      rw [List.flatMap_append, List.nodup_append] at apart
      obtain ⟨_, distinctMore, differ⟩ := apart
      rw [List.flatMap_cons] at distinctMore differ
      have new : ∀ v ∈ b.introduced, v ∉ t.scope := by
        intro v hv inScope
        rcases (c.scope v).1 inScope with ⟨a, ha, taken⟩ | ⟨part, hp, _⟩
        · exact differ v (List.mem_flatMap.2 ⟨a, ha, taken⟩) v (List.mem_append_left _ hv) rfl
        · exact absurd hp List.not_mem_nil
      obtain ⟨t₁, first, c₁⟩ := c.bind (List.nodup_append.1 distinctMore).1 new
      rw [List.append_cons] at distinct ⊢
      obtain ⟨t₂, others, c₂⟩ := ih c₁ distinct
      refine ⟨t₂, ?_, c₂⟩
      rw [List.flatMap_cons, Clause.run_append, first, ok_bind, others]

/-- All parts are computed by one `MATCH` each. -/
theorem run_parts (c : t.Computes P bindings parts) {more : List Part}
    (apart : ∀ b ∈ bindings, ∀ v ∈ b.setVars, ∀ part ∈ more, v ∉ part.vars) :
    ∃ t', Clause.run P (more.map fun part => .find [part]) t = .ok t' ∧
      t'.Computes P bindings (parts ++ more) := by
  induction more generalizing parts t with
  | nil => exact ⟨t, rfl, by rwa [List.append_nil]⟩
  | cons part rest ih =>
      obtain ⟨t₁, first, c₁⟩ := c.find fun b hb v hv => apart b hb v hv part List.mem_cons_self
      obtain ⟨t₂, others, c₂⟩ := ih c₁ fun b hb v hv p hp =>
        apart b hb v hv p (List.mem_cons_of_mem _ hp)
      refine ⟨t₂, ?_, by rwa [List.append_cons]⟩
      rw [List.map_cons, Clause.run_cons, first, ok_bind, others]

end Computes

/-- Conditions on variables in scope keep the records that meet them. -/
theorem run_filter {t : Table D} {conditions : List Condition}
    (bound : ∀ condition ∈ conditions, ∀ v ∈ condition.vars, v ∈ t.scope) :
    ∃ t', Clause.run P (if conditions.isEmpty then [] else [.filter conditions]) t = .ok t' ∧
      t'.scope = t.scope ∧
      ∀ r, r ∈ t'.rows ↔ r ∈ t.rows ∧ ∀ c ∈ conditions, c.holds D r.assignment = true := by
  cases conditions with
  | nil => exact ⟨t, rfl, rfl, by simp⟩
  | cons condition rest =>
      have reads : ∀ v ∈ (condition :: rest).flatMap Condition.vars, v ∈ t.scope := by
        intro v hv
        obtain ⟨c, hc, inside⟩ := List.mem_flatMap.1 hv
        exact bound c hc v inside
      refine ⟨{ t with rows := t.rows.filter fun r =>
        (condition :: rest).all (·.holds D r.assignment) }, ?_, rfl, fun r => ?_⟩
      · rw [List.isEmpty_cons, if_neg Bool.false_ne_true, Clause.run_cons, Clause.step,
          reading_ok reads]
        rfl
      · rw [List.mem_filter, List.all_eq_true]

/-- Returning a variable in scope leaves what it stood for. -/
theorem run_distinct {t : Table D} {var : String} (bound : var ∈ t.scope) :
    ∃ t', Clause.run P [.distinct var] t = .ok t' ∧
      ∀ cell, cell ∈ t'.column var ↔ ∃ r ∈ t.rows, r.lookup var = some cell := by
  refine ⟨⟨[var], ((t.column var).map fun cell => [(var, cell)]).dedup⟩, ?_, fun cell => ?_⟩
  · rw [Clause.run_cons, Clause.step, reading_ok (List.forall_mem_singleton.2 bound)]
    rfl
  · simp [column]

end Table

/-! ## Patterns -/

theorem Part.Holds.assigned {part : Part} (h : part.Holds D σ) :
    ∀ v ∈ part.vars, (σ v).isSome := by
  cases part with
  | node var labels =>
      obtain ⟨x, hx, _⟩ := h
      simp [vars, hx]
  | edge source relation target =>
      obtain ⟨x, y, hx, hy, _⟩ := h
      simp [vars, hx, hy]
  | valueEdge source relation target individual =>
      obtain ⟨x, y, hx, hy, _⟩ := h
      simp [vars, hx, hy]

/-- Only the variables of a condition matter. -/
theorem Condition.holds_congr {σ τ : Assignment D} {condition : Condition}
    (h : ∀ v ∈ condition.vars, σ v = τ v) : condition.holds D σ = condition.holds D τ := by
  cases condition with
  | hasAttribute var key => rw [holds, holds, h var (List.mem_singleton.2 rfl)]
  | attributeEquals var key literal => rw [holds, holds, h var (List.mem_singleton.2 rfl)]
  | unsatisfiable => rfl

namespace Pattern

variable {q : Pattern} {t : Table D}

/-- Once all bindings and parts were run, records assign vertices to exactly the nodes. -/
theorem Hygienic.covers (hygienic : q.Hygienic) (c : t.Computes P q.bindings q.parts) {r : Record D}
    (hr : r ∈ t.rows) : r.assignment.Covers q.nodes := by
  intro v
  constructor
  · intro assigned
    obtain ⟨x, hx⟩ := Option.isSome_iff_exists.1 assigned
    rcases c.vertices r hr v x (Record.assignment_eq_some.1 hx) with ⟨b, hb, rfl⟩ | inside
    · exact (hygienic.bindings b hb).1
    · exact (hygienic.nodes v).2 inside
  · intro hv
    obtain ⟨part, hp, inside⟩ := (hygienic.nodes v).1 hv
    exact ((c.sound r hr).parts part hp).assigned v inside

/-- Run on the table that says nothing, the clauses of a pattern with variables in order return its
answers. -/
theorem Hygienic.run_clauses (hygienic : q.Hygienic) :
    ∃ table, Clause.run P q.clauses Table.unit = .ok table ∧
      ∀ cell, cell ∈ table.column q.target ↔ ∃ x ∈ q.answers P, cell = .vertex x := by
  obtain ⟨t₁, ran₁, c₁⟩ := (Table.Computes.unit (P := P)).run_bindings hygienic.introduced
  have apart : ∀ b ∈ q.bindings, ∀ v ∈ b.setVars, ∀ part ∈ q.parts, v ∉ part.vars :=
    fun b hb v hv part hp inside => hygienic.sets b hb v hv ((hygienic.nodes v).2 ⟨part, hp, inside⟩)
  obtain ⟨t₂, ran₂, c₂⟩ := c₁.run_parts apart
  have inScope : ∀ v ∈ q.nodes, v ∈ t₂.scope :=
    fun v hv => (c₂.scope v).2 (.inr ((hygienic.nodes v).1 hv))
  obtain ⟨t₃, ran₃, sameScope, kept⟩ := Table.run_filter (P := P)
    fun c hc v hv => inScope v (hygienic.conditions c hc v hv)
  obtain ⟨t₄, ran₄, returned⟩ := Table.run_distinct (P := P)
    (sameScope ▸ inScope q.target hygienic.target : q.target ∈ t₃.scope)
  refine ⟨t₄, ?_, fun cell => (returned cell).trans ?_⟩
  · rw [clauses, Clause.run_append, Clause.run_append, Clause.run_append, ran₁, ok_bind, ran₂, ok_bind,
      ran₃, ok_bind, ran₄]
  · constructor
    · rintro ⟨r, hr, found⟩
      obtain ⟨old, conditions⟩ := (kept r).1 hr
      have covers := hygienic.covers c₂ old
      obtain ⟨x, hx⟩ := Option.isSome_iff_exists.1 ((covers q.target).2 hygienic.target)
      have satisfied := c₂.sound r old
      have same : cell = .vertex x :=
        Option.some.inj (found.symm.trans (Record.assignment_eq_some.1 hx))
      exact ⟨x, ⟨_, covers, ⟨satisfied.bindings, satisfied.parts, conditions⟩, hx⟩, same⟩
    · rintro ⟨x, ⟨σ, _, satisfied, hx⟩, rfl⟩
      obtain ⟨r, hr, within⟩ :=
        c₂.complete σ ⟨satisfied.bindings, satisfied.parts, fun _ h => absurd h List.not_mem_nil⟩
      -- The record agrees with the assignment on all nodes, and so on the conditions.
      have agrees : ∀ v ∈ q.nodes, r.assignment v = σ v := by
        intro v hv
        obtain ⟨y, hy⟩ := Option.isSome_iff_exists.1 ((hygienic.covers c₂ hr v).2 hv)
        rw [hy, within v y hy]
      refine ⟨r, (kept r).2 ⟨hr, fun c hc => ?_⟩, ?_⟩
      · rw [Condition.holds_congr fun v hv => agrees v (hygienic.conditions c hc v hv)]
        exact satisfied.conditions c hc
      · rw [← Record.assignment_eq_some, agrees q.target hygienic.target, hx]

end Pattern

/-! ## Compilers -/

namespace Compiler

/-- An expression is written as the clauses of its pattern, one per line, with some `MATCH` for the
conditions to follow.  Run one after the other, the clauses never bind a variable again and never read
one that stands for nothing, and what they return are the answers of the pattern. -/
theorem clauses_compute_pattern (D : Database) (P : Procedures D) (mode : Mode) (procedure : String)
    (e : ClassExpression) (target : Option String) (q : Pattern)
    (h : (⟨D.schema, mode, procedure⟩ : Compiler).pattern e target = .ok q) :
    (∃ lines, q.clauses.mapM (Clause.text D.schema procedure) = .ok lines ∧
      (⟨D.schema, mode, procedure⟩ : Compiler).text e target = .ok ("\n".intercalate lines)) ∧
    q.parts ≠ [] ∧
    ∃ table, Clause.run P q.clauses Table.unit = .ok table ∧
      ∀ cell, cell ∈ table.column q.target ↔ ∃ x ∈ q.answers P, cell = .vertex x := by
  have hygienic := Pattern.hygienic_of_toPattern h
  obtain ⟨part, matched, _⟩ := (hygienic.nodes q.target).1 hygienic.target
  refine ⟨?_, List.ne_nil_of_mem matched, hygienic.run_clauses⟩
  obtain ⟨text, rendered⟩ := Pattern.render_of_toPattern h D.schema procedure
  have joined := rendered
  rw [Pattern.render_eq] at joined
  obtain ⟨lines, texts, same⟩ := bind_eq_ok.1 joined
  refine ⟨lines, texts, ?_⟩
  rw [Compiler.text, h, ok_bind, same]
  exact rendered

theorem clauses_compute_pattern_twoClasses :
    ∃ q, (⟨{}, .inference, "closure"⟩ : Compiler).pattern .twoClasses none = .ok q ∧
      q.clauses = [.collect "A" "n0_set0", .collect "B" "n0_set1",
        .unwind (.intersection (.named "n0_set0") (.named "n0_set1")) "n0", .find [.node "n0" []],
        .distinct "n0"] ∧
      ∃ table, Clause.run (.ofMembers Database.sharedEdge.listLabelled) q.clauses .unit = .ok table ∧
        ∀ cell, cell ∈ table.column q.target ↔
          ∃ x ∈ q.answers (.ofMembers Database.sharedEdge.listLabelled), cell = .vertex x :=
  ⟨_, rfl, rfl, (clauses_compute_pattern .sharedEdge (.ofMembers (Database.listLabelled _)) .inference
    "closure" .twoClasses none _ rfl).2.2⟩

/-- Two restrictions can share an edge if each is matched on its own, and cannot in one `MATCH`. -/
example :
    let record : Record .sharedEdge := [("n0", .vertex (0 : Fin 2)), ("n1", .vertex (1 : Fin 2))]
    record.extendAll [.edge "n0" "p" "n2"] ≠ [] ∧
      Record.extendAll (D := .sharedEdge) [] [.edge "n0" "p" "n1", .edge "n0" "p" "n2"] = [] := by
  decide

end Compiler

end Ontograph
