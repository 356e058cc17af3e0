import Mathlib.Logic.Relation
import Ontograph.Proofs.Query.Simulation
import Ontograph.Query.Compiler

/-!
# Patterns are trees

The edges of a pattern grow one at a time, each from a node that is there to a new one.  Links that came
about in this way (`Grown`) form a tree: every node but the root is the end of one link, the link starts
at an earlier node, and every node is reached from the root.

What a walk keeps true is that the nodes of a draft are the target and the ends of the links, in order,
and that the links grew (`Draft.Planted`).

Main statements: `Grown.earlier`, `Grown.path`, `Draft.Planted.walk` and, for compilers,
`Compiler.pattern_is_tree`.
-/

namespace Ontograph

/-! ## Links -/

/-- The nodes that an edge connects: where it starts and where it ends. -/
def Part.link? : Part → Option (String × String)
  | node _ _ => none
  | edge source _ target => some (source, target)
  | valueEdge source _ target _ => some (source, target)

/-- The links of parts, in order. -/
def Part.links (parts : List Part) : List (String × String) :=
  parts.filterMap link?

/-- A root and the ends of links, in order. -/
def reached (root : String) (links : List (String × String)) : List String :=
  root :: links.map Prod.snd

/-- Links that were added one at a time, each from a node that was there to a new one. -/
inductive Grown (root : String) : List (String × String) → Prop where
  | root : Grown root []
  | link {links : List (String × String)} {source target : String} (grown : Grown root links)
      (old : source ∈ reached root links) (new : target ∉ reached root links) :
      Grown root (links ++ [(source, target)])

theorem reached_concat (root source target : String) (links : List (String × String)) :
    reached root (links ++ [(source, target)]) = reached root links ++ [target] := by
  simp [reached]

namespace Grown

variable {root : String} {links : List (String × String)}

/-- No node is reached twice. -/
theorem nodup (h : Grown root links) : (reached root links).Nodup := by
  induction h with
  | root => exact List.nodup_singleton root
  | link grown old new ih =>
      rw [reached_concat]
      exact ih.append (List.nodup_singleton _) (List.disjoint_singleton.2 new)

/-- Links start at nodes that are reached. -/
theorem source_mem (h : Grown root links) {source target : String} (hl : (source, target) ∈ links) :
    source ∈ reached root links := by
  induction h with
  | root => cases hl
  | link grown old new ih =>
      rw [reached_concat]
      rcases List.mem_append.1 hl with before | last
      · exact List.mem_append_left _ (ih before)
      · cases List.mem_singleton.1 last
        exact List.mem_append_left _ old

/-- A link starts at a node that was reached before its end. -/
theorem earlier (h : Grown root links) {source target : String} (hl : (source, target) ∈ links) :
    (reached root links).idxOf source < (reached root links).idxOf target := by
  induction h with
  | root => cases hl
  | @link links s t grown old new ih =>
      rw [reached_concat]
      rcases List.mem_append.1 hl with before | last
      · have start : source ∈ reached root links := grown.source_mem before
        have arrival : target ∈ reached root links :=
          List.mem_cons_of_mem _ (List.mem_map_of_mem before)
        rw [List.idxOf_append_of_mem start, List.idxOf_append_of_mem arrival]
        exact ih before
      · cases List.mem_singleton.1 last
        rw [List.idxOf_append_of_mem old, List.idxOf_append_of_notMem new]
        have bound := List.idxOf_lt_length_of_mem old
        omega

/-- Every node is reached from the root along links. -/
theorem path (h : Grown root links) {v : String} (hv : v ∈ reached root links) :
    Relation.ReflTransGen (fun source target => (source, target) ∈ links) root v := by
  induction h generalizing v with
  | root =>
      cases List.mem_singleton.1 hv
      exact .refl
  | @link links s t grown old new ih =>
      have kept : ∀ {w}, w ∈ reached root links → Relation.ReflTransGen
          (fun source target => (source, target) ∈ links ++ [(s, t)]) root w := by
        intro w hw
        refine Relation.ReflTransGen.mono ?_ _ _ (ih hw)
        intro source target hl
        exact List.mem_append_left _ hl
      rw [reached_concat] at hv
      rcases List.mem_append.1 hv with before | last
      · exact kept before
      · cases List.mem_singleton.1 last
        exact (kept old).tail List.mem_concat_self

/-- Every node but the root is the end of one link. -/
theorem count_ends (h : Grown root links) {v : String} (hv : v ∈ reached root links)
    (other : v ≠ root) : (links.map Prod.snd).count v = 1 := by
  have ends := List.nodup_cons.1 h.nodup
  rcases List.mem_cons.1 hv with same | member
  · exact absurd same other
  · exact List.count_eq_one_of_mem ends.2 member

/-- No link ends at the root. -/
theorem root_notMem (h : Grown root links) : root ∉ links.map Prod.snd :=
  (List.nodup_cons.1 h.nodup).1

end Grown

/-! ## Drafts -/

namespace Draft

variable {mode : Mode} {node : String} {depth : Nat} {d d' : Draft}

/-- The nodes of the draft are the target and the ends of its links, in order, and the links grew one
at a time. -/
structure Planted (d : Draft) : Prop where
  nodes : d.nodes = reached d.target (Part.links d.parts)
  grown : Grown d.target (Part.links d.parts)

namespace Planted

theorem start (target : String) (depth : Nat) : ((Draft.start target).enter depth).Planted where
  nodes := rfl
  grown := .root

/-- Bindings, conditions and scopes do not count. -/
theorem congr (h : d.Planted) (target : d'.target = d.target) (nodes : d'.nodes = d.nodes)
    (links : Part.links d'.parts = Part.links d.parts) : d'.Planted where
  nodes := by rw [nodes, target, links, h.nodes]
  grown := by rw [target, links]; exact h.grown

theorem addNodePart (h : d.Planted) (node : String) (labels : List Uri) :
    (d.addPart (.node node labels)).Planted := by
  refine h.congr rfl rfl ?_
  simp [Draft.addPart, Part.links, Part.link?]

theorem addNothing (h : d.Planted) (e : ClassExpression) : (d.addNothing e).Planted := by
  rcases addNothing_cases e d with same | same
  · rwa [same]
  · rw [same]
    exact h.congr rfl rfl rfl

theorem addClassesOf (h : d.Planted) {e : ClassExpression}
    (added : d.addClassesOf mode node e = .ok d') : d'.Planted := by
  have before := h.addNothing e
  rcases addClasses_cases added with ⟨_, rfl⟩ | ⟨_, rfl⟩ | ⟨_, _, _, rfl⟩ | ⟨_, _, rfl⟩
  · exact before
  · exact before.addNodePart node _
  · exact before.congr rfl rfl rfl
  · exact before.congr rfl rfl rfl

/-- An edge from a node of the draft to a new node. -/
theorem addLink (h : d.Planted) (sound : d.Sound) (hn : node ∈ d.nodes) {part : Part}
    (link : part.link? = some (node, d.fresh.1)) : (d.fresh.2.addPart part).Planted := by
  have links : Part.links (d.fresh.2.addPart part).parts =
      Part.links d.parts ++ [(node, d.fresh.1)] := by
    simp [Draft.addPart, Draft.fresh, Part.links, link]
  constructor
  · have nodes : (d.fresh.2.addPart part).nodes = d.nodes ++ [d.fresh.1] := rfl
    rw [links, reached_concat, nodes, h.nodes]
    rfl
  · have new := sound.fresh_notMem
    rw [h.nodes] at hn new
    rw [links]
    exact .link h.grown hn new

theorem enterEdge (h : d.Planted) (sound : d.Sound) (hn : node ∈ d.nodes) (property : Uri)
    (depth : Nat) : (d.enterEdge node property depth).Planted := by
  have linked : (d.fresh.2.addPart (.edge node property d.fresh.1)).Planted :=
    h.addLink sound hn rfl
  exact linked.congr rfl rfl rfl

theorem addValueEdge (h : d.Planted) (sound : d.Sound) (hn : node ∈ d.nodes)
    (property individual : Uri) : (d.addValueEdge node property individual).Planted :=
  h.addLink sound hn rfl

/-- A walk from a node of the draft adds branches to the tree. -/
theorem walk {rs : List ClassExpression} (w : ClassExpression.Walk mode node depth rs d d')
    (h : d.Planted) (sound : d.Sound) (hn : node ∈ d.nodes) : d'.Planted := by
  induction w with
  | done => exact h
  | @objectSome node depth property filler rest d d₁ d₂ d' name quoted classes walk _ inner others =>
      have entered := h.enterEdge sound hn property depth
      have unbound := sound.unbound_enterEdge node property depth
      have inScope := (sound.enterEdge hn property depth).addClassesOf unbound classes
      have grown := Grows.addClassesOf classes
      have branch := inner (entered.addClassesOf classes) inScope (grown.nodes unbound.1)
      have left : d₂.leave.Planted := branch.congr rfl rfl rfl
      have after : d₂.Sound := Sound.walk walk inScope (grown.nodes unbound.1)
      have kept := ((Grows.enterEdge d node property depth).trans grown).trans (Grows.walk walk)
      exact others left after.leave (kept.nodes hn)
  | objectHas quoted _ others =>
      exact others (h.addValueEdge sound hn _ _) (sound.addValueEdge hn _ _)
        ((Grows.addValueEdge _ _ _ _).nodes hn)
  | dataSome quoted _ others =>
      have vars : ∀ v ∈ [_], v ∈ _ := List.forall_mem_singleton.2 hn
      exact others (h.congr rfl rfl rfl) (sound.addCondition vars) hn
  | dataHas quoted written _ others =>
      have vars : ∀ v ∈ [_], v ∈ _ := List.forall_mem_singleton.2 hn
      exact others (h.congr rfl rfl rfl) (sound.addCondition vars) hn

end Planted

end Draft

/-! ## Finished patterns -/

namespace Pattern

/-- The links of a pattern. -/
def links (q : Pattern) : List (String × String) :=
  Part.links q.parts

/-- The nodes of a pattern are its target and the ends of its links. -/
structure Planted (q : Pattern) : Prop where
  nodes : q.nodes = reached q.target q.links
  grown : Grown q.target q.links

theorem links_finish (d : Draft) : d.finish.links = Part.links d.parts := by
  cases h : d.parts <;> simp [links, Draft.finish, h, Part.links, Part.link?]

theorem planted_of_toPattern {mode : Mode} {target : Option String} {e : ClassExpression}
    {q : Pattern} (h : e.toPattern mode target = .ok q) : q.Planted := by
  obtain ⟨d₁, d₂, classes, w, rfl⟩ := ClassExpression.walk_of_toPattern h
  have sound := (Draft.Sound.start (target.getD "n0") 1).addClassesOf
    (Draft.Sound.unbound_start (target.getD "n0") 1) classes
  have unbound := Draft.Sound.unbound_start (target.getD "n0") 1
  have root := (Draft.Grows.addClassesOf classes).nodes unbound.1
  have started := (Draft.Planted.start (target.getD "n0") 1).addClassesOf classes
  have planted : d₂.Planted := Draft.Planted.walk w started sound root
  have links : d₂.leave.finish.links = Part.links d₂.parts := links_finish d₂.leave
  constructor
  · rw [links]
    exact planted.nodes
  · rw [links]
    exact planted.grown

namespace Hygienic

variable {q : Pattern}

/-- No variable is bound by two bindings. -/
theorem nodup_boundVariables (h : q.Hygienic) : q.boundVariables.Nodup := by
  have single : q.boundVariables = q.bindings.flatMap fun b => [b.var] := List.map_eq_flatMap
  have part : (q.bindings.flatMap fun b => [b.var]).Sublist (q.bindings.flatMap Binding.introduced) :=
    List.Sublist.flatMap_right _ fun b _ => List.sublist_append_right b.setVars [b.var]
  rw [single]
  exact h.introduced.sublist part

/-- No two sets have one name. -/
theorem nodup_setVars (h : q.Hygienic) : (q.bindings.flatMap Binding.setVars).Nodup := by
  have part : (q.bindings.flatMap Binding.setVars).Sublist (q.bindings.flatMap Binding.introduced) :=
    List.Sublist.flatMap_right _ fun b _ => List.sublist_append_left b.setVars [b.var]
  exact h.introduced.sublist part

end Hygienic

/-- The variables of a pattern and how they hang together. -/
structure Tree (q : Pattern) : Prop where
  /-- The nodes are all different, and the target is the first. -/
  nodup : q.nodes.Nodup
  first : q.nodes.head? = some q.target
  /-- Parts, conditions and bindings are about nodes. -/
  parts : ∀ part ∈ q.parts, ∀ v ∈ part.vars, v ∈ q.nodes
  conditions : ∀ condition ∈ q.conditions, ∀ v ∈ condition.vars, v ∈ q.nodes
  bound : ∀ v ∈ q.boundVariables, v ∈ q.nodes
  /-- Every node but the target is the end of exactly one link, and the target of none. -/
  one : ∀ v ∈ q.nodes, v ≠ q.target → (q.links.map Prod.snd).count v = 1
  none : q.target ∉ q.links.map Prod.snd
  /-- Links start at earlier nodes, and every node is reached from the target. -/
  earlier : ∀ source target, (source, target) ∈ q.links →
    q.nodes.idxOf source < q.nodes.idxOf target
  path : ∀ v ∈ q.nodes,
    Relation.ReflTransGen (fun source target => (source, target) ∈ q.links) q.target v
  /-- Some part is about the target. -/
  rooted : ∃ part ∈ q.parts, q.target ∈ part.vars
  /-- No node is bound twice; the names of sets are all different, and none is the name of a node. -/
  boundOnce : q.boundVariables.Nodup
  sets : (q.bindings.flatMap Binding.setVars).Nodup
  apart : ∀ name ∈ q.bindings.flatMap Binding.setVars, name ∉ q.nodes

end Pattern

/-- Two classes on one node and again on the next. -/
def ClassExpression.pairTwice : ClassExpression :=
  intersection [named "A", named "B", objectSome "p" (intersection [named "A", named "B"])]

namespace Compiler

/-- The variables of the pattern of an expression are those of a tree, whatever the mode and the name of
the target are. -/
theorem pattern_is_tree (compiler : Compiler) (e : ClassExpression) (target : Option String)
    (q : Pattern) (h : compiler.pattern e target = .ok q) : q.Tree := by
  have hygienic := Pattern.hygienic_of_toPattern h
  have planted := Pattern.planted_of_toPattern h
  have grown := planted.grown
  have mem : ∀ {v}, v ∈ q.nodes → v ∈ reached q.target q.links := fun hv => planted.nodes ▸ hv
  constructor
  case nodup => exact planted.nodes ▸ grown.nodup
  case first => rw [planted.nodes]; rfl
  case parts => exact fun part hp v hv => (hygienic.nodes v).2 ⟨part, hp, hv⟩
  case conditions => exact hygienic.conditions
  case bound =>
    intro v hv
    obtain ⟨b, hb, rfl⟩ := List.mem_map.1 hv
    exact (hygienic.bindings b hb).1
  case one => exact fun v hv other => grown.count_ends (mem hv) other
  case none => exact grown.root_notMem
  case earlier =>
    intro source target hl
    rw [planted.nodes]
    exact grown.earlier hl
  case path => exact fun v hv => grown.path (mem hv)
  case rooted => exact (hygienic.nodes q.target).1 hygienic.target
  case boundOnce => exact hygienic.nodup_boundVariables
  case sets => exact hygienic.nodup_setVars
  case apart =>
    intro name hn
    obtain ⟨b, hb, inside⟩ := List.mem_flatMap.1 hn
    exact hygienic.sets b hb name inside

theorem pattern_is_tree_pairTwice :
    ∃ q, (⟨{}, .inference, "closure"⟩ : Compiler).pattern .pairTwice (some "n0_set0") = .ok q ∧
      q.nodes = ["n0_set0", "n0"] ∧ q.links = [("n0_set0", "n0")] ∧
      q.bindings = [.common [⟨"A", "n0_set0_set0"⟩, ⟨"B", "n0_set0_set1"⟩] "n0_set0",
        .common [⟨"A", "n0_set0_"⟩, ⟨"B", "n0_set1"⟩] "n0"] ∧
      q.Tree :=
  ⟨_, rfl, rfl, rfl, rfl,
    pattern_is_tree ⟨{}, .inference, "closure"⟩ .pairTwice (some "n0_set0") _ rfl⟩

end Compiler

end Ontograph
