import Ontograph.Proofs.Query.Simulation
import Ontograph.Proofs.Query.Matching
import Ontograph.Query.Compiler

/-!
# Exactness of patterns

The answers of a pattern are the extension of its expression.  In direct mode a class is read as a
label, and in inference mode as what the procedure of the database lists for it.

A walk is followed in both directions.  If an assignment satisfies a draft, it satisfied the draft at
every step before, and so each visited restriction holds where it was visited (`mem_extension_of_walk`).
If restrictions hold of a vertex, an assignment that satisfies the draft before the walk is extended
along it, and each existential restriction gives the vertex for its new node
(`exists_solved_of_walk`).

Main statements: `Compiler.direct_pattern_exact` and `Compiler.inference_pattern_exact`.
-/

namespace Ontograph

variable {D : Database} {P : Procedures D} {σ τ : Assignment D}

/-- What a class is read as. -/
def Mode.classes (P : Procedures D) : Mode → Uri → Set D.Vertex
  | direct => D.labelled
  | inference => fun cls => {x | x ∈ P.members cls}

/-- A binding of the common members of classes lets its variable stand for these. -/
theorem Binding.holds_common {target var : String} {classes : List Uri} {x : D.Vertex}
    (common : P.ListsCommon) (nonempty : classes ≠ []) (hx : σ var = some x) :
    (Binding.common (classes.mapIdx fun i cls => ⟨cls, Draft.setName target var i⟩) var).Holds P σ ↔
      ∀ cls ∈ classes, x ∈ P.members cls := by
  let sets : List MemberSet := classes.mapIdx fun i cls => ⟨cls, Draft.setName target var i⟩
  have numbered : (Binding.common sets var).Numbered target := ⟨classes, nonempty, rfl⟩
  have distinct : (sets.map MemberSet.var).Nodup := numbered.nodup_setVars
  have stand : ∀ set ∈ sets, MemberSet.lists P sets set.var = some (P.members set.cls) :=
    fun set hs => MemberSet.lists_eq distinct hs
  obtain ⟨vs, hvs, mem⟩ := Collection.eval_ofSets common (mt List.mapIdx_eq_nil_iff.1 nonempty) stand
  have classes_iff : (∀ set ∈ sets, x ∈ P.members set.cls) ↔ ∀ cls ∈ classes, x ∈ P.members cls := by
    constructor
    · intro all cls hc
      obtain ⟨i, hi, rfl⟩ := List.getElem_of_mem hc
      exact all _ (List.mem_mapIdx.2 ⟨i, hi, rfl⟩)
    · intro all set hs
      obtain ⟨i, hi, rfl⟩ := List.mem_mapIdx.1 hs
      exact all _ (List.getElem_mem hi)
  have elements : (Binding.common sets var).elements P = vs := by
    rw [Binding.elements, hvs]
    rfl
  rw [← classes_iff, ← mem]
  constructor
  · rintro ⟨y, hy, member⟩
    obtain rfl := Option.some.inj (hy.symm.trans hx)
    exact elements ▸ member
  · intro member
    exact ⟨x, hx, elements ▸ member⟩

namespace Draft

variable {mode : Mode} {node : String} {depth : Nat} {d d' : Draft} {x : D.Vertex}

/-! ## Satisfied drafts -/

/-- An assignment satisfies all that was added to a draft. -/
def Satisfied (P : Procedures D) (σ : Assignment D) (d : Draft) : Prop :=
  σ.Satisfies P d.bindings d.parts d.conditions

theorem Satisfied.of_grows (h : d'.Satisfied P σ) (grown : d.Grows d') : d.Satisfied P σ :=
  ⟨fun b hb => h.bindings b (grown.bindings hb), fun p hp => h.parts p (grown.parts hp),
    fun c hc => h.conditions c (grown.conditions hc)⟩

theorem satisfied_addCondition {condition : Condition} :
    (d.addCondition condition).Satisfied P σ ↔
      d.Satisfied P σ ∧ condition.holds D σ = true :=
  Assignment.satisfies_push_condition

theorem satisfied_addPart {part : Part} :
    (d.addPart part).Satisfied P σ ↔ d.Satisfied P σ ∧ part.Holds D σ :=
  Assignment.satisfies_push_part

theorem satisfied_addBinding {binding : Binding} :
    (d.addBinding binding).Satisfied P σ ↔ d.Satisfied P σ ∧ binding.Holds P σ :=
  Assignment.satisfies_push_binding

theorem satisfied_enterEdge {property : Uri} :
    (d.enterEdge node property depth).Satisfied P σ ↔
      d.Satisfied P σ ∧ (Part.edge node property d.fresh.1).Holds D σ :=
  satisfied_addPart (d := d.fresh.2)

theorem satisfied_addValueEdge {property individual : Uri} :
    (d.addValueEdge node property individual).Satisfied P σ ↔
      d.Satisfied P σ ∧ (Part.valueEdge node property d.fresh.1 individual).Holds D σ :=
  satisfied_addPart (d := d.fresh.2)

theorem satisfied_addNothing {e : ClassExpression} :
    (d.addNothing e).Satisfied P σ ↔ d.Satisfied P σ ∧ e.conjoinsNothing = false := by
  unfold addNothing refute
  split
  · simp [satisfied_addCondition, Condition.holds, ClassExpression.conjoinsNothing]
  · cases e.conjoinsNothing with
    | false => simp
    | true =>
        simp only [if_true, Bool.true_eq_false, and_false, iff_false]
        split
        · next present => exact fun h => Bool.false_ne_true (h.conditions _ present)
        · simp [satisfied_addCondition, Condition.holds]

theorem satisfied_addClasses {classes : List Uri} (common : P.ListsCommon)
    (added : d.addClasses mode node classes = .ok d') (hx : σ node = some x) :
    d'.Satisfied P σ ↔ d.Satisfied P σ ∧ ∀ cls ∈ classes, x ∈ mode.classes P cls := by
  rcases addClasses_cases added with
    ⟨rfl, rfl⟩ | ⟨rfl, rfl⟩ | ⟨rfl, cls, rfl, rfl⟩ | ⟨rfl, nonempty, rfl⟩
  · simp
  · rw [satisfied_addPart, Part.Holds, hx]
    simp [Mode.classes]
  · rw [satisfied_addBinding, Binding.Holds, Binding.var, hx]
    simp [Mode.classes, Binding.elements]
  · rw [satisfied_addBinding, Binding.holds_common common nonempty hx]
    rfl

/-- What an expression says about a vertex by its classes is satisfied where it holds. -/
theorem satisfied_addClassesOf {e : ClassExpression} (common : P.ListsCommon)
    (added : d.addClassesOf mode node e = .ok d') (hx : σ node = some x) :
    d'.Satisfied P σ ↔ d.Satisfied P σ ∧
      (∀ cls ∈ e.conjoinedClasses, x ∈ mode.classes P cls) ∧ e.conjoinsNothing = false := by
  rw [satisfied_addClasses common added hx, satisfied_addNothing, and_assoc, and_congr_right_iff]
  exact fun _ => and_comm

end Draft

namespace ClassExpression

variable {mode : Mode} {node : String} {depth : Nat} {d d' : Draft} {x : D.Vertex}

/-- In an expression without identifiers of the top and the bottom class, a vertex is in the extension
if it is in all conjoined classes and all restrictions hold of it. -/
theorem Plain.mem_extension_iff {I : Interpretation D.Vertex} {e : ClassExpression} (plain : e.Plain) :
    x ∈ e.extension I ↔
      ((∀ cls ∈ e.conjoinedClasses, x ∈ I.members cls) ∧ e.conjoinsNothing = false) ∧
        ∀ r ∈ e.restrictions, x ∈ r.extension I := by
  have classes : ∀ cls ∈ e.conjoinedClasses, classExtension I cls = I.members cls := by
    intro cls hc
    obtain ⟨notThing, notNothing⟩ := plain _ (named_mem_subterms hc) cls rfl
    rw [classExtension, if_neg notThing, if_neg notNothing]
  rw [ClassExpression.mem_extension_iff, and_assoc]
  exact and_congr_left' (forall₂_congr fun cls hc => by rw [classes cls hc])

theorem Plain.filler {property : Uri} {filler : ClassExpression}
    (plain : (objectSome property filler).Plain) : filler.Plain :=
  fun s hs => plain s (List.mem_cons_of_mem _ hs)

theorem Plain.restrictions {e : ClassExpression} (plain : e.Plain) : ∀ r ∈ e.restrictions, r.Plain :=
  fun _ hr s hs => plain s (subterms_trans hs (mem_subterms_of_mem_restrictions hr))

/-! ## Along a walk -/

/-- What a walk added holds where it was added: of the vertex of a node all restrictions that were
visited there hold. -/
theorem mem_extension_of_walk {rs : List ClassExpression} (common : P.ListsCommon)
    (w : Walk mode node depth rs d d') (plain : ∀ r ∈ rs, r.Plain) (h : d'.Satisfied P σ)
    (hx : σ node = some x) :
    ∀ r ∈ rs, x ∈ r.extension (D.interpretation (mode.classes P)) := by
  induction w generalizing x with
  | done => exact fun r hr => absurd hr List.not_mem_nil
  | @objectSome node depth property filler rest d d₁ d₂ d' name quoted classes walk later inner
      others =>
      obtain ⟨plainHead, plainRest⟩ := List.forall_mem_cons.1 plain
      have after : d₂.Satisfied P σ := h.of_grows ((Draft.Grows.leave d₂).trans (.walk later))
      have before : d₁.Satisfied P σ := after.of_grows (.walk walk)
      -- The edge is in the graph, so its new node has a vertex.
      obtain ⟨_, x', y, hx', hy, adjacent⟩ :=
        Draft.satisfied_enterEdge.1 (before.of_grows (.addClassesOf classes))
      obtain rfl := Option.some.inj (hx'.symm.trans hx)
      obtain ⟨_, own⟩ := (Draft.satisfied_addClassesOf common classes hy).1 before
      have held := inner plainHead.filler.restrictions after hy
      refine List.forall_mem_cons.2 ⟨⟨y, adjacent, ?_⟩, others plainRest h hx⟩
      exact plainHead.filler.mem_extension_iff.2 ⟨own, held⟩
  | @objectHas node depth property individual rest d d' name quoted later others =>
      obtain ⟨_, plainRest⟩ := List.forall_mem_cons.1 plain
      obtain ⟨_, x', y, hx', hy, adjacent, identified⟩ :=
        Draft.satisfied_addValueEdge.1 (h.of_grows (.walk later))
      obtain rfl := Option.some.inj (hx'.symm.trans hx)
      exact List.forall_mem_cons.2 ⟨⟨y, adjacent, identified⟩, others plainRest h hx⟩
  | dataSome quoted later others =>
      obtain ⟨_, plainRest⟩ := List.forall_mem_cons.1 plain
      obtain ⟨_, met⟩ := Draft.satisfied_addCondition.1 (h.of_grows (.walk later))
      rw [Condition.holds, hx] at met
      exact List.forall_mem_cons.2 ⟨met, others plainRest h hx⟩
  | dataHas quoted written later others =>
      obtain ⟨_, plainRest⟩ := List.forall_mem_cons.1 plain
      obtain ⟨_, met⟩ := Draft.satisfied_addCondition.1 (h.of_grows (.walk later))
      rw [Condition.holds, hx] at met
      exact List.forall_mem_cons.2 ⟨met, others plainRest h hx⟩

/-- Where restrictions hold, an assignment of the nodes before the walk is extended to one of the nodes
after it. -/
theorem exists_solved_of_walk {rs : List ClassExpression} (common : P.ListsCommon)
    (w : Walk mode node depth rs d d') (plain : ∀ r ∈ rs, r.Plain) (sound : d.Sound)
    (hn : node ∈ d.nodes) (covers : σ.Covers d.nodes) (h : d.Satisfied P σ) (hx : σ node = some x)
    (all : ∀ r ∈ rs, x ∈ r.extension (D.interpretation (mode.classes P))) :
    ∃ τ : Assignment D, σ.Within τ ∧ τ.Covers d'.nodes ∧ d'.Satisfied P τ := by
  induction w generalizing x σ with
  | done => exact ⟨σ, .refl σ, covers, h⟩
  | @objectSome node depth property filler rest d d₁ d₂ d' name quoted classes walk _ inner others =>
      obtain ⟨plainHead, plainRest⟩ := List.forall_mem_cons.1 plain
      obtain ⟨⟨y, adjacent, member⟩, allRest⟩ := List.forall_mem_cons.1 all
      obtain ⟨own, held⟩ := plainHead.filler.mem_extension_iff.1 member
      have within := covers.within_extend sound.fresh_notMem y
      have entered : (d.enterEdge node property depth).Satisfied P (σ.extend d.fresh.1 y) :=
        Draft.satisfied_enterEdge.2
          ⟨h.mono within, x, y, within _ _ hx, Assignment.extend_self .., adjacent⟩
      have added := (Draft.satisfied_addClassesOf common classes (Assignment.extend_self ..)).2
        ⟨entered, own⟩
      have entrance := sound.enterEdge hn property depth
      have unbound := sound.unbound_enterEdge node property depth
      have grown := Draft.Grows.addClassesOf classes
      have sound₁ := entrance.addClassesOf unbound classes
      have covers₁ : (σ.extend d.fresh.1 y).Covers d₁.nodes := by
        rw [Draft.nodes_addClassesOf classes]
        exact covers.extend y
      obtain ⟨τ, within₁, covers₂, solved⟩ := inner plainHead.filler.restrictions sound₁
        (grown.nodes unbound.1) covers₁ added (Assignment.extend_self ..) held
      have sound₂ := Draft.Sound.walk walk sound₁ (grown.nodes unbound.1)
      have kept := ((Draft.Grows.enterEdge d node property depth).trans grown).trans (.walk walk)
      have sofar := within.trans within₁
      obtain ⟨υ, within₂, covers₃, solved⟩ := others plainRest sound₂.leave (kept.nodes hn) covers₂
        solved (sofar _ _ hx) allRest
      exact ⟨υ, sofar.trans within₂, covers₃, solved⟩
  | @objectHas node depth property individual rest d d' name quoted _ others =>
      obtain ⟨_, plainRest⟩ := List.forall_mem_cons.1 plain
      obtain ⟨⟨y, adjacent, identified⟩, allRest⟩ := List.forall_mem_cons.1 all
      have within := covers.within_extend sound.fresh_notMem y
      have added := Draft.satisfied_addValueEdge.2
        ⟨h.mono within, x, y, within _ _ hx, Assignment.extend_self .., adjacent, identified⟩
      obtain ⟨τ, within₁, covers₁, solved⟩ := others plainRest (sound.addValueEdge hn _ _)
        ((Draft.Grows.addValueEdge ..).nodes hn) (covers.extend y) added (within _ _ hx) allRest
      exact ⟨τ, within.trans within₁, covers₁, solved⟩
  | @dataSome node depth property rest d d' name quoted _ others =>
      obtain ⟨_, plainRest⟩ := List.forall_mem_cons.1 plain
      obtain ⟨met, allRest⟩ := List.forall_mem_cons.1 all
      have holds : (Condition.hasAttribute node property).holds D σ = true := by
        rw [Condition.holds, hx]
        exact met
      have added := Draft.satisfied_addCondition.2 ⟨h, holds⟩
      exact others plainRest (sound.addCondition (List.forall_mem_singleton.2 hn)) hn covers added hx
        allRest
  | @dataHas node depth property value rest d d' name text quoted written _ others =>
      obtain ⟨_, plainRest⟩ := List.forall_mem_cons.1 plain
      obtain ⟨met, allRest⟩ := List.forall_mem_cons.1 all
      have holds : (Condition.attributeEquals node property value).holds D σ = true := by
        rw [Condition.holds, hx]
        exact met
      have added := Draft.satisfied_addCondition.2 ⟨h, holds⟩
      exact others plainRest (sound.addCondition (List.forall_mem_singleton.2 hn)) hn covers added hx
        allRest

end ClassExpression

/-! ## Patterns -/

/-- In direct mode classes are labels. -/
theorem Draft.bindings_addClassesOf_direct {node : String} {e : ClassExpression} {d d' : Draft}
    (added : d.addClassesOf .direct node e = .ok d') : d'.bindings = d.bindings := by
  rcases addClasses_cases added with ⟨_, rfl⟩ | ⟨_, rfl⟩ | ⟨other, _⟩ | ⟨other, _⟩
  · exact d.bindings_addNothing e
  · exact d.bindings_addNothing e
  · cases other
  · cases other

theorem ClassExpression.Walk.bindings_direct {node : String} {depth : Nat} {rs : List ClassExpression}
    {d d' : Draft} (w : Walk .direct node depth rs d d') : d'.bindings = d.bindings := by
  induction w with
  | done => rfl
  | objectSome _ added _ _ inner others =>
      have entered := Draft.bindings_addClassesOf_direct added
      exact others.trans (inner.trans entered)
  | objectHas _ _ others => exact others
  | dataSome _ _ others => exact others
  | dataHas _ _ _ others => exact others

namespace Pattern

/-- Matching the node to return on its own asks for nothing. -/
theorem satisfies_finish {d : Draft} {x : D.Vertex} (hx : σ d.target = some x) :
    σ.Satisfies P d.finish.bindings d.finish.parts d.finish.conditions ↔ d.Satisfied P σ := by
  constructor
  · intro h
    exact ⟨h.bindings, fun p hp => h.parts p (Draft.mem_finish_parts.2 (.inl hp)), h.conditions⟩
  · intro h
    refine ⟨h.bindings, fun p hp => ?_, h.conditions⟩
    rcases Draft.mem_finish_parts.1 hp with old | ⟨_, rfl⟩
    · exact h.parts p old
    · exact ⟨x, hx, fun _ hl => absurd hl List.not_mem_nil⟩

/-- The answers of the pattern of an expression are its extension, with classes read as the mode has
it. -/
theorem answers_eq_extension {mode : Mode} {target : Option String} {e : ClassExpression} {q : Pattern}
    (common : P.ListsCommon) (h : e.toPattern mode target = .ok q) :
    q.answers P = e.extension (D.interpretation (mode.classes P)) := by
  obtain ⟨d₁, d₂, classes, w, rfl⟩ := ClassExpression.walk_of_toPattern h
  have plain := ClassExpression.Plain.normalized e
  have start := Draft.Sound.start (target.getD "n0") 1
  have unbound := Draft.Sound.unbound_start (target.getD "n0") 1
  have grown := Draft.Grows.addClassesOf classes
  have sameTarget : d₂.target = target.getD "n0" := (grown.trans (.walk w)).target
  rw [← ClassExpression.extension_normalized]
  ext x
  rw [plain.mem_extension_iff]
  constructor
  · rintro ⟨σ, _, satisfied, hx⟩
    have after : d₂.Satisfied P σ := (satisfies_finish (d := d₂.leave) hx).1 satisfied
    have root : σ (target.getD "n0") = some x := sameTarget ▸ hx
    obtain ⟨_, own⟩ :=
      (Draft.satisfied_addClassesOf common classes root).1 (after.of_grows (.walk w))
    exact ⟨own, ClassExpression.mem_extension_of_walk common w plain.restrictions after root⟩
  · rintro ⟨own, held⟩
    let σ : Assignment D := Assignment.extend (fun _ => none) (target.getD "n0") x
    have root : σ (target.getD "n0") = some x := Assignment.extend_self ..
    have covers : σ.Covers d₁.nodes := by
      have nowhere : Assignment.Covers (D := D) (fun _ => none) [] := fun _ => by simp
      rw [Draft.nodes_addClassesOf classes]
      exact nowhere.extend x
    have before : ((Draft.start (target.getD "n0")).enter 1).Satisfied P σ := by
      refine ⟨?_, ?_, ?_⟩ <;> exact fun _ h => absurd h List.not_mem_nil
    have added := (Draft.satisfied_addClassesOf common classes root).2 ⟨before, own⟩
    obtain ⟨τ, within, covers, satisfied⟩ := ClassExpression.exists_solved_of_walk common w
      plain.restrictions (start.addClassesOf unbound classes) (grown.nodes unbound.1) covers added root
      held
    have hx : τ d₂.target = some x := sameTarget ▸ within _ _ root
    exact ⟨τ, covers, (satisfies_finish (d := d₂.leave) hx).2 satisfied, hx⟩

/-- Nothing is bound in direct mode. -/
theorem bindings_of_direct {target : Option String} {e : ClassExpression} {q : Pattern}
    (h : e.toPattern .direct target = .ok q) : q.bindings = [] := by
  obtain ⟨d₁, d₂, classes, w, rfl⟩ := ClassExpression.walk_of_toPattern h
  exact w.bindings_direct.trans (Draft.bindings_addClassesOf_direct classes)

/-- Without bindings the vertices that a pattern matches are its answers. -/
theorem matched_eq_answers (P : Procedures D) {q : Pattern} (none : q.bindings = []) :
    q.matched D = q.answers P := by
  ext x
  constructor
  · rintro ⟨σ, covers, parts, conditions, hx⟩
    have bindings : ∀ b ∈ q.bindings, b.Holds P σ := by simp [none]
    exact ⟨σ, covers, ⟨bindings, parts, conditions⟩, hx⟩
  · rintro ⟨σ, covers, satisfied, hx⟩
    exact ⟨σ, covers, satisfied.parts, satisfied.conditions, hx⟩

/-- In direct mode a pattern matches the extension of its expression, where a class is what has its
label. -/
theorem matched_eq_extension {target : Option String} {e : ClassExpression} {q : Pattern}
    (h : e.toPattern .direct target = .ok q) :
    q.matched D = e.extension (D.interpretation D.labelled) :=
  have common := Procedures.listsCommon_ofMembers fun _ => ([] : List D.Vertex)
  (matched_eq_answers _ (bindings_of_direct h)).trans (answers_eq_extension common h)

end Pattern

/-! ## Compilers -/

/-- Two restrictions that one edge can satisfy. -/
def ClassExpression.twoFillers : ClassExpression :=
  intersection [objectSome "p" (named "A"), objectSome "p" (named "B")]

/-- Two classes at once. -/
def ClassExpression.twoClasses : ClassExpression :=
  intersection [named "A", named "B"]

namespace Compiler

/-- In direct mode a pattern has no bindings, and the vertices that it matches are the extension of its
expression in the graph, where a class is what has its label. -/
theorem direct_pattern_exact (D : Database) (procedure : String) (e : ClassExpression)
    (target : Option String) (q : Pattern)
    (h : (⟨D.schema, .direct, procedure⟩ : Compiler).pattern e target = .ok q) :
    q.bindings = [] ∧ q.matched D = e.extension (D.interpretation D.labelled) :=
  ⟨Pattern.bindings_of_direct h, Pattern.matched_eq_extension h⟩

theorem direct_pattern_exact_twoFillers :
    ∃ q, (⟨{}, .direct, "closure"⟩ : Compiler).pattern .twoFillers none = .ok q ∧
      q.parts = [.edge "n0" "p" "n1", .node "n1" ["A"], .edge "n0" "p" "n2", .node "n2" ["B"]] ∧
      q.matched .sharedEdge =
        ClassExpression.twoFillers.extension
          (Database.sharedEdge.interpretation (Database.labelled _)) :=
  ⟨_, rfl, rfl, (direct_pattern_exact .sharedEdge "closure" .twoFillers none _ rfl).2⟩

/-- In inference mode the answers of a pattern are the extension of its expression in the graph, where a
class is what the procedure lists for it; the top and the bottom class keep their meaning.  The other
procedure is only expected to list the common elements of two lists. -/
theorem inference_pattern_exact (D : Database) (P : Procedures D) (inst : Uri → Set D.Vertex)
    (lists : ∀ cls x, x ∈ P.members cls ↔ x ∈ inst cls) (common : P.ListsCommon)
    (procedure : String) (e : ClassExpression) (target : Option String) (q : Pattern)
    (h : (⟨D.schema, .inference, procedure⟩ : Compiler).pattern e target = .ok q) :
    q.answers P = e.extension (D.interpretation inst) := by
  have same : Mode.inference.classes P = inst := by
    funext cls
    exact Set.ext (lists cls)
  rw [← same]
  exact Pattern.answers_eq_extension common h

theorem inference_pattern_exact_twoClasses :
    ∃ q, (⟨{}, .inference, "closure"⟩ : Compiler).pattern .twoClasses none = .ok q ∧
      q.bindings = [.common [⟨"A", "n0_set0"⟩, ⟨"B", "n0_set1"⟩] "n0"] ∧
      q.answers (.ofMembers Database.sharedEdge.listLabelled) =
        ClassExpression.twoClasses.extension
          (Database.sharedEdge.interpretation (Database.labelled _)) :=
  ⟨_, rfl, rfl, inference_pattern_exact .sharedEdge (.ofMembers (Database.listLabelled _)) _
    (Database.mem_listLabelled _) (Procedures.listsCommon_ofMembers _) "closure" .twoClasses none _ rfl⟩

end Compiler

end Ontograph
