import Ontograph.Query.Rendering
import Ontograph.Proofs.Graph.PropertyGraph

/-!
# What patterns match

An assignment gives vertices to variables.  A pattern is matched by the assignments of its nodes that
satisfy its bindings, its parts and its conditions all at once, and its answers are the vertices that
they give to its target.  Nothing is said here about how they are found.

Bindings refer to two procedures of the database, of which nothing is known: one lists the members of a
class, and one lists what two lists have in common.  The second is used on collected sets by name, and
`Collection` keeps the expression in which it is used.

Main statements: `Collection.text_ofSets` (the expression is the one that is written down) and
`Collection.eval_ofSets` (it lists the common members if every name stands for its set).
-/

namespace Ontograph

variable {D : Database}

/-- The vertices that variables stand for, as far as they stand for one. -/
abbrev Assignment (D : Database) : Type :=
  String → Option D.Vertex

/-- The procedures that a query may call: the members of a class, and the common elements of two
lists. -/
structure Procedures (D : Database) where
  members : Uri → List D.Vertex
  intersection : List D.Vertex → List D.Vertex → List D.Vertex

namespace Procedures

/-- The second procedure lists exactly the elements that its two lists have in common. -/
def ListsCommon (P : Procedures D) : Prop :=
  ∀ a b x, x ∈ P.intersection a b ↔ x ∈ a ∧ x ∈ b

/-- Procedures that list given members and compare lists element by element. -/
def ofMembers (members : Uri → List D.Vertex) : Procedures D where
  members := members
  intersection left right := left.filter fun x => x ∈ right

theorem listsCommon_ofMembers (members : Uri → List D.Vertex) : (ofMembers members).ListsCommon := by
  intro a b x
  simp [ofMembers]

end Procedures

/-! ## Expressions for sets -/

/-- An expression for a list of vertices. -/
inductive Collection where
  | empty
  | named (var : String)
  | intersection (left right : Collection)
deriving DecidableEq

namespace Collection

/-- The text of an expression. -/
def text : Collection → String
  | empty => "[]"
  | named var => var
  | intersection left right => "apoc.coll.intersection(" ++ left.text ++ ", " ++ right.text ++ ")"

/-- The variables in an expression. -/
def vars : Collection → List String
  | empty => []
  | named var => [var]
  | intersection left right => left.vars ++ right.vars

/-- The list that an expression stands for, if all its variables stand for lists. -/
def eval (P : Procedures D) (lists : String → Option (List D.Vertex)) :
    Collection → Option (List D.Vertex)
  | empty => some []
  | named var => lists var
  | intersection left right => do
      let left ← left.eval P lists
      let right ← right.eval P lists
      return P.intersection left right

/-- The expression for the common members of sets, folded from the left. -/
def ofSets : List MemberSet → Collection
  | [] => empty
  | first :: rest => rest.foldl (fun c set => intersection c (named set.var)) (named first.var)

/-- The expression is what a binding is written with. -/
theorem text_ofSets (sets : List MemberSet) : (ofSets sets).text = Binding.commonElements sets := by
  have fold : ∀ (rest : List MemberSet) (c : Collection),
      (rest.foldl (fun c set => intersection c (named set.var)) c).text =
        rest.foldl (fun text set => "apoc.coll.intersection(" ++ text ++ ", " ++ set.var ++ ")")
          c.text := by
    intro rest
    induction rest with
    | nil => exact fun c => rfl
    | cons set rest ih => exact fun c => ih _
  cases sets with
  | nil => rfl
  | cons first rest => exact fold rest _

theorem vars_ofSets (sets : List MemberSet) : (ofSets sets).vars = sets.map MemberSet.var := by
  have fold : ∀ (rest : List MemberSet) (c : Collection),
      (rest.foldl (fun c set => intersection c (named set.var)) c).vars =
        c.vars ++ rest.map MemberSet.var := by
    intro rest
    induction rest with
    | nil => simp
    | cons set rest ih => simp [ih, vars]
  cases sets with
  | nil => rfl
  | cons first rest => exact fold rest _

variable {P : Procedures D}

/-- Only the variables in an expression matter. -/
theorem eval_congr {lists others : String → Option (List D.Vertex)} {c : Collection}
    (h : ∀ var ∈ c.vars, lists var = others var) : c.eval P lists = c.eval P others := by
  induction c with
  | empty => rfl
  | named var => exact h var (List.mem_singleton.2 rfl)
  | intersection left right ihLeft ihRight =>
      rw [eval, eval, ihLeft fun var hv => h var (List.mem_append_left _ hv),
        ihRight fun var hv => h var (List.mem_append_right _ hv)]

/-- The expression for sets lists their common members, if each name stands for the members of its
class. -/
theorem eval_ofSets {lists : String → Option (List D.Vertex)} {sets : List MemberSet}
    (common : P.ListsCommon) (nonempty : sets ≠ [])
    (stand : ∀ set ∈ sets, lists set.var = some (P.members set.cls)) :
    ∃ vs, (ofSets sets).eval P lists = some vs ∧ ∀ x, x ∈ vs ↔ ∀ set ∈ sets, x ∈ P.members set.cls := by
  -- The fold goes on from the value of an expression for the sets before.
  have fold : ∀ (rest : List MemberSet) (c : Collection) (vs : List D.Vertex),
      (∀ set ∈ rest, lists set.var = some (P.members set.cls)) → c.eval P lists = some vs →
      ∃ ws, (rest.foldl (fun c set => intersection c (named set.var)) c).eval P lists = some ws ∧
        ∀ x, x ∈ ws ↔ x ∈ vs ∧ ∀ set ∈ rest, x ∈ P.members set.cls := by
    intro rest
    induction rest with
    | nil => exact fun c vs _ hc => ⟨vs, hc, by simp⟩
    | cons set rest ih =>
        intro c vs stand hc
        obtain ⟨first, others⟩ := List.forall_mem_cons.1 stand
        have step : (intersection c (named set.var)).eval P lists =
            some (P.intersection vs (P.members set.cls)) := by
          rw [eval, eval, hc, first]
          rfl
        obtain ⟨ws, hw, mem⟩ := ih _ _ others step
        refine ⟨ws, hw, fun x => ?_⟩
        rw [mem, common vs _ x, List.forall_mem_cons, and_assoc]
  cases sets with
  | nil => exact absurd rfl nonempty
  | cons first rest =>
      obtain ⟨stand, others⟩ := List.forall_mem_cons.1 stand
      obtain ⟨ws, hw, mem⟩ := fold rest (named first.var) _ others stand
      exact ⟨ws, hw, fun x => by rw [mem, List.forall_mem_cons]⟩

end Collection

/-! ## Bindings, parts and conditions -/

/-- A list of entries with distinct keys has each of its entries. -/
theorem lookup_of_mem {β : Type} {l : List (String × β)} {key : String} {value : β}
    (distinct : (l.map Prod.fst).Nodup) (h : (key, value) ∈ l) : l.lookup key = some value := by
  obtain ⟨before, after, rfl⟩ := List.append_of_mem h
  rw [List.map_append, List.map_cons] at distinct
  have new := List.disjoint_of_nodup_append distinct
  refine List.lookup_eq_some_iff.2 ⟨before, after, rfl, fun entry he => ?_⟩
  rw [bne_iff_ne]
  exact fun same => new (List.mem_map_of_mem he) (same ▸ List.mem_cons_self)

/-- The lists that names of sets stand for. -/
def MemberSet.lists (P : Procedures D) (sets : List MemberSet) : String → Option (List D.Vertex) :=
  fun name => (sets.map fun set => (set.var, P.members set.cls)).lookup name

theorem MemberSet.lists_eq {P : Procedures D} {sets : List MemberSet} {set : MemberSet}
    (distinct : (sets.map var).Nodup) (h : set ∈ sets) :
    lists P sets set.var = some (P.members set.cls) := by
  refine lookup_of_mem ?_ (List.mem_map_of_mem h)
  rwa [List.map_map]

namespace Binding

/-- The vertices that a binding lets its variable stand for.  A collection without a value has none. -/
def elements (P : Procedures D) : Binding → List D.Vertex
  | members cls _ => P.members cls
  | common sets _ => ((Collection.ofSets sets).eval P (MemberSet.lists P sets)).getD []

/-- The variable stands for one of the vertices. -/
def Holds (P : Procedures D) (σ : Assignment D) (binding : Binding) : Prop :=
  ∃ x, σ binding.var = some x ∧ x ∈ binding.elements P

end Binding

/-- The part is in the graph. -/
def Part.Holds (D : Database) (σ : Assignment D) : Part → Prop
  | node var labels => ∃ x, σ var = some x ∧ ∀ label ∈ labels, x ∈ D.labelled label
  | edge source relation target =>
      ∃ x y, σ source = some x ∧ σ target = some y ∧ D.graph.Adjacent x relation y
  | valueEdge source relation target individual =>
      ∃ x y, σ source = some x ∧ σ target = some y ∧ D.graph.Adjacent x relation y ∧
        y ∈ D.identified individual

/-- Whether the condition is met. -/
def Condition.holds (D : Database) (σ : Assignment D) : Condition → Bool
  | hasAttribute var key => (σ var).any fun x => (D.graph.node x).hasAttribute key
  | attributeEquals var key literal =>
      (σ var).any fun x => (D.graph.node x).attributeIs key fun value => D.equals value literal
  | unsatisfiable => false

/-! ## Patterns -/

/-- An assignment satisfies bindings, parts and conditions all at once. -/
structure Assignment.Satisfies (P : Procedures D) (σ : Assignment D) (bindings : List Binding)
    (parts : List Part) (conditions : List Condition) : Prop where
  bindings : ∀ binding ∈ bindings, binding.Holds P σ
  parts : ∀ part ∈ parts, part.Holds D σ
  conditions : ∀ condition ∈ conditions, condition.holds D σ = true

namespace Assignment

variable {P : Procedures D} {σ : Assignment D} {bindings : List Binding} {parts : List Part}
  {conditions : List Condition}

theorem satisfies_push_binding {binding : Binding} :
    σ.Satisfies P (bindings ++ [binding]) parts conditions ↔
      σ.Satisfies P bindings parts conditions ∧ binding.Holds P σ := by
  constructor
  · intro h
    obtain ⟨old, new⟩ := List.forall_mem_append.1 h.bindings
    exact ⟨⟨old, h.parts, h.conditions⟩, List.forall_mem_singleton.1 new⟩
  · rintro ⟨h, new⟩
    exact ⟨List.forall_mem_append.2 ⟨h.bindings, List.forall_mem_singleton.2 new⟩, h.parts,
      h.conditions⟩

theorem satisfies_push_part {part : Part} :
    σ.Satisfies P bindings (parts ++ [part]) conditions ↔
      σ.Satisfies P bindings parts conditions ∧ part.Holds D σ := by
  constructor
  · intro h
    obtain ⟨old, new⟩ := List.forall_mem_append.1 h.parts
    exact ⟨⟨h.bindings, old, h.conditions⟩, List.forall_mem_singleton.1 new⟩
  · rintro ⟨h, new⟩
    exact ⟨h.bindings, List.forall_mem_append.2 ⟨h.parts, List.forall_mem_singleton.2 new⟩,
      h.conditions⟩

theorem satisfies_push_condition {condition : Condition} :
    σ.Satisfies P bindings parts (conditions ++ [condition]) ↔
      σ.Satisfies P bindings parts conditions ∧ condition.holds D σ = true := by
  constructor
  · intro h
    obtain ⟨old, new⟩ := List.forall_mem_append.1 h.conditions
    exact ⟨⟨h.bindings, h.parts, old⟩, new condition (List.mem_singleton.2 rfl)⟩
  · rintro ⟨h, new⟩
    exact ⟨h.bindings, h.parts,
      List.forall_mem_append.2 ⟨h.conditions, List.forall_mem_singleton.2 new⟩⟩

end Assignment

/-- An assignment gives vertices to the variables of a list and to no others. -/
def Assignment.Covers (σ : Assignment D) (vars : List String) : Prop :=
  ∀ var, (σ var).isSome ↔ var ∈ vars

namespace Pattern

/-- The vertices that satisfying assignments of the nodes give to the target. -/
def answers (P : Procedures D) (q : Pattern) : Set D.Vertex :=
  {x | ∃ σ : Assignment D, σ.Covers q.nodes ∧ σ.Satisfies P q.bindings q.parts q.conditions ∧
    σ q.target = some x}

/-- The vertices that assignments of the nodes give to the target if they satisfy the parts and the
conditions, whatever the bindings are. -/
def matched (D : Database) (q : Pattern) : Set D.Vertex :=
  {x | ∃ σ : Assignment D, σ.Covers q.nodes ∧ (∀ part ∈ q.parts, part.Holds D σ) ∧
    (∀ condition ∈ q.conditions, condition.holds D σ = true) ∧ σ q.target = some x}

end Pattern

/-! ## Larger assignments -/

namespace Assignment

/-- What one assignment says the other says too. -/
def Within (σ τ : Assignment D) : Prop :=
  ∀ var x, σ var = some x → τ var = some x

theorem Within.refl (σ : Assignment D) : σ.Within σ :=
  fun _ _ h => h

theorem Within.trans {σ τ υ : Assignment D} (first : σ.Within τ) (second : τ.Within υ) :
    σ.Within υ :=
  fun var x h => second var x (first var x h)

/-- Gives a vertex to one more variable. -/
def extend (σ : Assignment D) (var : String) (x : D.Vertex) : Assignment D :=
  Function.update σ var (some x)

@[simp] theorem extend_self (σ : Assignment D) (var : String) (x : D.Vertex) :
    σ.extend var x var = some x :=
  Function.update_self ..

variable {σ : Assignment D} {vars : List String} {var : String}

theorem Covers.eq_none (covers : σ.Covers vars) (h : var ∉ vars) : σ var = none :=
  Option.not_isSome_iff_eq_none.1 fun found => h ((covers var).1 found)

theorem Covers.within_extend (covers : σ.Covers vars) (h : var ∉ vars) (x : D.Vertex) :
    σ.Within (σ.extend var x) := by
  intro other y hy
  have differs : other ≠ var := by
    rintro rfl
    rw [covers.eq_none h] at hy
    cases hy
  rw [extend, Function.update_of_ne differs, hy]

theorem Covers.extend (covers : σ.Covers vars) (x : D.Vertex) :
    (σ.extend var x).Covers (vars ++ [var]) := by
  intro other
  by_cases same : other = var
  · simp [same]
  · rw [Assignment.extend, Function.update_of_ne same, covers other]
    simp [same]

end Assignment

variable {P : Procedures D} {σ τ : Assignment D}

theorem Binding.Holds.mono {binding : Binding} (h : binding.Holds P σ) (within : σ.Within τ) :
    binding.Holds P τ := by
  obtain ⟨x, hx, member⟩ := h
  exact ⟨x, within _ _ hx, member⟩

theorem Part.Holds.mono {part : Part} (h : part.Holds D σ) (within : σ.Within τ) :
    part.Holds D τ := by
  cases part with
  | node var labels =>
      obtain ⟨x, hx, labelled⟩ := h
      exact ⟨x, within _ _ hx, labelled⟩
  | edge source relation target =>
      obtain ⟨x, y, hx, hy, adjacent⟩ := h
      exact ⟨x, y, within _ _ hx, within _ _ hy, adjacent⟩
  | valueEdge source relation target individual =>
      obtain ⟨x, y, hx, hy, adjacent, named⟩ := h
      exact ⟨x, y, within _ _ hx, within _ _ hy, adjacent, named⟩

theorem Condition.holds_mono {condition : Condition} (h : condition.holds D σ = true)
    (within : σ.Within τ) : condition.holds D τ = true := by
  cases condition with
  | hasAttribute var key =>
      obtain ⟨x, hx, met⟩ := (Option.any_eq_true ..).1 h
      exact (Option.any_eq_true ..).2 ⟨x, within _ _ hx, met⟩
  | attributeEquals var key literal =>
      obtain ⟨x, hx, met⟩ := (Option.any_eq_true ..).1 h
      exact (Option.any_eq_true ..).2 ⟨x, within _ _ hx, met⟩
  | unsatisfiable => cases h

theorem Assignment.Satisfies.mono {bindings : List Binding} {parts : List Part}
    {conditions : List Condition} (h : σ.Satisfies P bindings parts conditions)
    (within : σ.Within τ) : τ.Satisfies P bindings parts conditions :=
  ⟨fun b hb => (h.bindings b hb).mono within, fun p hp => (h.parts p hp).mono within,
    fun c hc => Condition.holds_mono (h.conditions c hc) within⟩

end Ontograph
