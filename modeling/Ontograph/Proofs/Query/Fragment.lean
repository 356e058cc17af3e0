import Ontograph.Proofs.Query.Fault
import Ontograph.Proofs.Query.Simulation
import Ontograph.Query.Compiler

/-!
# The supported fragment

The expressions that have a pattern, said without the compiler: all their subterms are classes,
intersections, existential restrictions, restrictions to an individual, restrictions on data, or the top
or the bottom class, with names that can be quoted and literals that have a text.

What is checked twice, once when the pattern is built and once when it is written down, is the same:
the parts and conditions of a draft always have a text (`Draft.Printable`).

Main statements: `fault?_eq_none_iff` (an expression has no fault if all its subterms are supported),
`unsupported_of_fault?` (with good names only, a fault is a construct without a pattern) and
`Compiler.accepts_supported_fragment`.
-/

namespace Ontograph

namespace ClassExpression

/-- Whether an expression has a pattern as far as it can be seen without its operands and its filler. -/
def Supported : ClassExpression → Prop
  | thing => True
  | nothing => True
  | named uri => Query.Quotable uri
  | intersection _ => True
  | objectSome property _ => Query.Quotable property
  | objectHas property _ => Query.Quotable property
  | dataSome property => Query.Quotable property
  | dataHas property value => Query.Quotable property ∧ Query.Writable value
  | union _ => False
  | complement _ => False
  | objectAll _ _ => False
  | objectCardinality _ _ _ _ => False
  | dataAll _ _ => False

/-! ## No fault -/

theorem restrictionFaultList?_eq_none {l : List ClassExpression} :
    restrictionFaultList? l = none ↔ ∀ e ∈ l, e.restrictionFault? = none := by
  induction l with
  | nil => simp [restrictionFaultList?]
  | cons a rest ih => simp [restrictionFaultList?, ih]

theorem classFault?_eq_none {e : ClassExpression} :
    e.classFault? = none ↔ ∀ uri ∈ e.conjoinedClasses, Query.Quotable uri := by
  simp [classFault?, Query.nameFault?_eq_none]

theorem fault?_eq_none {e : ClassExpression} :
    e.fault? = none ↔ e.classFault? = none ∧ e.restrictionFault? = none := by
  simp [fault?]

/-- An expression has no fault if all its subterms are supported. -/
theorem fault?_eq_none_iff {e : ClassExpression} :
    e.fault? = none ↔ ∀ s ∈ e.subterms, s.Supported := by
  induction e using induction with
  | thing | nothing =>
      simp [fault?, classFault?, conjoinedClasses, restrictionFault?, subterms, Supported]
  | named uri =>
      simp [fault?, classFault?, conjoinedClasses, restrictionFault?, subterms, Supported,
        Query.nameFault?_eq_none]
  | intersection operands ih =>
      have classes : (intersection operands).classFault? = none ↔
          ∀ e ∈ operands, e.classFault? = none := by
        simp only [classFault?_eq_none, conjoinedClasses, mem_conjoinedClassesList]
        constructor
        · intro all e he uri h
          exact all uri ⟨e, he, h⟩
        · rintro all uri ⟨e, he, h⟩
          exact all e he uri h
      rw [fault?_eq_none, classes, restrictionFault?, restrictionFaultList?_eq_none, subterms,
        List.forall_mem_cons, forall_subtermsList]
      constructor
      · rintro ⟨classes, restrictions⟩
        exact ⟨trivial, fun e he => (ih e he).1 (fault?_eq_none.2 ⟨classes e he, restrictions e he⟩)⟩
      · rintro ⟨_, all⟩
        have parts := fun e he => fault?_eq_none.1 ((ih e he).2 (all e he))
        exact ⟨fun e he => (parts e he).1, fun e he => (parts e he).2⟩
  | objectSome property filler ih =>
      rw [fault?_eq_none, restrictionFault?, subterms, List.forall_mem_cons, ← ih, fault?_eq_none]
      simp [classFault?, conjoinedClasses, Query.nameFault?_eq_none, Supported]
  | objectHas | dataSome =>
      simp [fault?, classFault?, conjoinedClasses, restrictionFault?, subterms, Supported,
        Query.nameFault?_eq_none]
  | dataHas =>
      simp [fault?, classFault?, conjoinedClasses, restrictionFault?, subterms, Supported,
        Query.nameFault?_eq_none, Query.literalFault?_eq_none]
  | union | complement | objectAll | objectCardinality | dataAll =>
      simp [fault?, classFault?, conjoinedClasses, restrictionFault?, subterms, Supported]

/-! ## Faults other than names -/

/-- The names of an expression that can be quoted are no faults. -/
theorem nameFault?_of_ownNames {e : ClassExpression} {uri : Uri}
    (names : ∀ s ∈ e.subterms, ∀ uri ∈ s.ownNames, Query.Quotable uri) (h : uri ∈ e.ownNames) :
    Query.nameFault? uri = none :=
  Query.nameFault?_eq_none.2 (names e (self_mem_subterms e) uri h)

theorem classFault?_of_ownNames {e : ClassExpression}
    (names : ∀ s ∈ e.subterms, ∀ uri ∈ s.ownNames, Query.Quotable uri) : e.classFault? = none :=
  classFault?_eq_none.2 fun uri hu => names _ (named_mem_subterms hu) uri (List.mem_singleton.2 rfl)

/-- If all names can be quoted, a fault among the restrictions is a construct without a pattern. -/
theorem unsupported_of_restrictionFault? {e : ClassExpression} {failure : Failure}
    (names : ∀ s ∈ e.subterms, ∀ uri ∈ s.ownNames, Query.Quotable uri)
    (h : e.restrictionFault? = some failure) : ∃ why, failure = .unsupported why := by
  induction e using induction with
  | thing | nothing | named => cases h
  | intersection operands ih =>
      have parts := forall_subtermsList.1 (List.forall_mem_cons.1 names).2
      rw [restrictionFault?] at h
      clear names
      induction operands with
      | nil => cases h
      | cons a rest step =>
          obtain ⟨first, others⟩ := List.forall_mem_cons.1 ih
          obtain ⟨firstParts, otherParts⟩ := List.forall_mem_cons.1 parts
          rw [restrictionFaultList?] at h
          cases ha : a.restrictionFault? with
          | none =>
              rw [ha] at h
              exact step others h otherParts
          | some fault =>
              rw [ha] at h
              cases h
              exact first firstParts ha
  | objectSome property filler ih =>
      obtain ⟨_, inner⟩ := List.forall_mem_cons.1 names
      rw [restrictionFault?, nameFault?_of_ownNames names (List.mem_singleton.2 rfl),
        classFault?_of_ownNames inner] at h
      exact ih inner h
  | objectHas | dataSome =>
      rw [restrictionFault?, nameFault?_of_ownNames names (List.mem_singleton.2 rfl)] at h
      cases h
  | dataHas property value =>
      rw [restrictionFault?, nameFault?_of_ownNames names (List.mem_singleton.2 rfl)] at h
      cases value with
      | float x =>
          cases hx : x.isFinite with
          | true => simp [Query.literalFault?, hx] at h
          | false =>
              simp [Query.literalFault?, hx] at h
              exact ⟨_, h.symm⟩
      | integer | string | boolean => cases h
  | union | complement | objectAll | objectCardinality | dataAll =>
      cases h
      exact ⟨_, rfl⟩

/-- If all names can be quoted, a fault is a construct without a pattern. -/
theorem unsupported_of_fault? {e : ClassExpression} {failure : Failure}
    (names : ∀ s ∈ e.subterms, ∀ uri ∈ s.ownNames, Query.Quotable uri)
    (h : e.fault? = some failure) : ∃ why, failure = .unsupported why := by
  rw [fault?, classFault?_of_ownNames names] at h
  exact unsupported_of_restrictionFault? names h

end ClassExpression

/-! ## Patterns that have a text -/

/-- All names in a part can be quoted. -/
def Part.Printable : Part → Prop
  | node _ labels => ∀ label ∈ labels, Query.Quotable label
  | edge _ relation _ => Query.Quotable relation
  | valueEdge _ relation _ _ => Query.Quotable relation

/-- All names in a condition can be quoted and its literal has a text. -/
def Condition.Printable : Condition → Prop
  | hasAttribute _ key => Query.Quotable key
  | attributeEquals _ key value => Query.Quotable key ∧ Query.Writable value
  | unsatisfiable => True

theorem Part.Printable.text {part : Part} (h : part.Printable) (schema : Schema) :
    ∃ text, part.text schema = .ok text := by
  cases part with
  | node var labels =>
      obtain ⟨names, hn⟩ := exists_mapM_eq_ok.2 fun label hl => Query.exists_uriName_iff.2 (h label hl)
      exact ⟨_, by rw [Part.text, hn]; rfl⟩
  | edge source relation target =>
      obtain ⟨name, hn⟩ := Query.exists_uriName_iff.2 h
      exact ⟨_, by rw [Part.text, hn]; rfl⟩
  | valueEdge source relation target individual =>
      obtain ⟨name, hn⟩ := Query.exists_uriName_iff.2 h
      exact ⟨_, by rw [Part.text, hn]; rfl⟩

theorem Condition.Printable.text {condition : Condition} (h : condition.Printable) :
    ∃ text, condition.text = .ok text := by
  cases condition with
  | hasAttribute var key =>
      obtain ⟨name, hn⟩ := Query.exists_uriName_iff.2 h
      exact ⟨_, by rw [Condition.text, hn]; rfl⟩
  | attributeEquals var key value =>
      obtain ⟨name, hn⟩ := Query.exists_uriName_iff.2 h.1
      obtain ⟨text, ht⟩ := Query.exists_literal_iff.2 h.2
      exact ⟨_, by rw [Condition.text, hn, ht]; rfl⟩
  | unsatisfiable => exact ⟨_, rfl⟩

namespace Draft

/-- Every part and every condition of the draft has a text. -/
structure Printable (d : Draft) : Prop where
  parts : ∀ part ∈ d.parts, part.Printable
  conditions : ∀ condition ∈ d.conditions, condition.Printable

namespace Printable

variable {d : Draft}

theorem addPart (h : d.Printable) {part : Part} (hp : part.Printable) :
    (d.addPart part).Printable := by
  refine ⟨fun p hmem => ?_, h.conditions⟩
  rcases List.mem_append.1 hmem with old | new
  · exact h.parts p old
  · rwa [List.mem_singleton.1 new]

theorem addCondition (h : d.Printable) {condition : Condition} (hc : condition.Printable) :
    (d.addCondition condition).Printable := by
  refine ⟨h.parts, fun c hmem => ?_⟩
  rcases List.mem_append.1 hmem with old | new
  · exact h.conditions c old
  · rwa [List.mem_singleton.1 new]

theorem addNothing (h : d.Printable) (e : ClassExpression) : (d.addNothing e).Printable := by
  rcases Draft.addNothing_cases e d with same | same
  · rwa [same]
  · rw [same]
    exact h.addCondition trivial

theorem addClasses (h : d.Printable) {mode : Mode} {node : String} {classes : List Uri} {d' : Draft}
    (added : d.addClasses mode node classes = .ok d') : d'.Printable := by
  obtain ⟨names, hn, _⟩ := bind_eq_ok.1 added
  have quotable : ∀ uri ∈ classes, Query.Quotable uri :=
    fun uri hu => Query.exists_uriName_iff.1 (exists_mapM_eq_ok.1 ⟨names, hn⟩ uri hu)
  rcases Draft.addClasses_cases added with ⟨_, rfl⟩ | ⟨_, rfl⟩ | ⟨_, _, _, rfl⟩ | ⟨_, _, rfl⟩
  · exact h
  · exact h.addPart quotable
  · exact ⟨h.parts, h.conditions⟩
  · exact ⟨h.parts, h.conditions⟩

theorem addClassesOf (h : d.Printable) {mode : Mode} {node : String} {e : ClassExpression}
    {d' : Draft} (added : d.addClassesOf mode node e = .ok d') : d'.Printable :=
  (h.addNothing e).addClasses added

theorem enterEdge (h : d.Printable) {property : Uri} (hp : Query.Quotable property)
    {node : String} {depth : Nat} : (d.enterEdge node property depth).Printable := by
  have fresh : d.fresh.2.Printable := ⟨h.parts, h.conditions⟩
  have quotable : (Part.edge node property d.fresh.1).Printable := hp
  have added := fresh.addPart quotable
  exact ⟨added.parts, added.conditions⟩

theorem addValueEdge (h : d.Printable) {property : Uri} (hp : Query.Quotable property)
    {node : String} {individual : Uri} : (d.addValueEdge node property individual).Printable := by
  have fresh : d.fresh.2.Printable := ⟨h.parts, h.conditions⟩
  have quotable : (Part.valueEdge node property d.fresh.1 individual).Printable := hp
  exact fresh.addPart quotable

theorem leave (h : d.Printable) : d.leave.Printable :=
  ⟨h.parts, h.conditions⟩

/-- What a walk adds has a text. -/
theorem walk {mode : Mode} {node : String} {depth : Nat} {rs : List ClassExpression} {d' : Draft}
    (w : ClassExpression.Walk mode node depth rs d d') (h : d.Printable) : d'.Printable := by
  induction w with
  | done => exact h
  | objectSome quoted classes _ _ inner others =>
      have quotable := Query.exists_uriName_iff.1 ⟨_, quoted⟩
      exact others (inner ((h.enterEdge quotable).addClassesOf classes)).leave
  | objectHas quoted _ others =>
      have quotable := Query.exists_uriName_iff.1 ⟨_, quoted⟩
      exact others (h.addValueEdge quotable)
  | dataSome quoted _ others =>
      have quotable := Query.exists_uriName_iff.1 ⟨_, quoted⟩
      exact others (h.addCondition quotable)
  | dataHas quoted written _ others =>
      have quotable := Query.exists_uriName_iff.1 ⟨_, quoted⟩
      have writable := Query.exists_literal_iff.1 ⟨_, written⟩
      exact others (h.addCondition ⟨quotable, writable⟩)

end Printable

end Draft

namespace Pattern

/-- Every part and every condition of the pattern of an expression has a text. -/
theorem printable_of_toPattern {mode : Mode} {target : Option String} {e : ClassExpression}
    {q : Pattern} (h : e.toPattern mode target = .ok q) :
    (∀ part ∈ q.parts, part.Printable) ∧ ∀ condition ∈ q.conditions, condition.Printable := by
  obtain ⟨d₁, d₂, classes, w, rfl⟩ := ClassExpression.walk_of_toPattern h
  have start : ((Draft.start (target.getD "n0")).enter 1).Printable :=
    ⟨fun _ h => absurd h List.not_mem_nil, fun _ h => absurd h List.not_mem_nil⟩
  have printable := Draft.Printable.walk w (start.addClassesOf classes)
  refine ⟨fun part hm => ?_, printable.conditions⟩
  rcases Draft.mem_finish_parts.1 hm with old | ⟨_, rfl⟩
  · exact printable.parts part old
  · simp [Part.Printable]

/-- The pattern of an expression has a text. -/
theorem render_of_toPattern {mode : Mode} {target : Option String} {e : ClassExpression}
    {q : Pattern} (h : e.toPattern mode target = .ok q) (schema : Schema) (procedure : String) :
    ∃ text, q.render schema procedure = .ok text := by
  obtain ⟨parts, conditions⟩ := printable_of_toPattern h
  obtain ⟨partTexts, hp⟩ := exists_mapM_eq_ok.2 fun part hm => (parts part hm).text schema
  obtain ⟨conditionTexts, hc⟩ := exists_mapM_eq_ok.2 fun condition hm => (conditions condition hm).text
  exact ⟨_, by rw [render, hp, hc]; rfl⟩

end Pattern

/-! ## Targets -/

namespace Query

/-- A character that may begin the name of a variable. -/
def NameStart (c : Char) : Prop :=
  'A' ≤ c ∧ c ≤ 'Z' ∨ 'a' ≤ c ∧ c ≤ 'z' ∨ c = '_'

/-- A character that may go on in the name of a variable. -/
def NameRest (c : Char) : Prop :=
  NameStart c ∨ '0' ≤ c ∧ c ≤ '9'

/-- The form of the name of a variable: a letter or an underscore, then letters, digits and
underscores. -/
def VariableForm (s : String) : Prop :=
  ∃ c rest, s.toList = c :: rest ∧ NameStart c ∧ ∀ d ∈ rest, NameRest d

theorem isIdentifierStart_iff {c : Char} : isIdentifierStart c = true ↔ NameStart c := by
  have letter : c.isAlpha = (decide ('A' ≤ c ∧ c ≤ 'Z') || (decide ('a' ≤ c) && decide (c ≤ 'z'))) :=
    rfl
  simp only [isIdentifierStart, NameStart, letter, Bool.or_eq_true, Bool.and_eq_true,
    decide_eq_true_eq]
  exact or_assoc

theorem isIdentifierRest_iff {c : Char} : isIdentifierRest c = true ↔ NameRest c := by
  have letterOrDigit : c.isAlphanum = (c.isAlpha || (decide ('0' ≤ c) && decide (c ≤ '9'))) := rfl
  rw [NameRest, ← isIdentifierStart_iff]
  simp only [isIdentifierRest, isIdentifierStart, letterOrDigit, Bool.or_eq_true, Bool.and_eq_true,
    decide_eq_true_eq]
  exact or_right_comm

theorem isVariable_iff {s : String} : isVariable s = true ↔ VariableForm s := by
  unfold isVariable isPlainIdentifier VariableForm
  cases h : s.toList with
  | nil => simp
  | cons c rest => simp [isIdentifierStart_iff, isIdentifierRest_iff]

end Query

/-! ## What compilers accept -/

namespace ClassExpression

/-- The fault of an expression and a name for the node to return. -/
def patternFault? (target : Option String) (e : ClassExpression) : Option Failure :=
  if e.normalized.isThing || e.normalized.isNothing then some (.unsupported (.bare e.normalized))
  else (badTarget? target).map .invalidIdentifier <|> e.normalized.fault?

theorem toPattern_meets (mode : Mode) (target : Option String) (e : ClassExpression) :
    Meets (e.patternFault? target) (e.toPattern mode target) := by
  rw [toPattern_eq, patternFault?]
  split
  · rfl
  · split
    · next bad =>
        rw [bad]
        rfl
    · next good =>
        rw [good]
        exact (addTo_meets e.normalized _).map

theorem badTarget?_eq_none {target : Option String} :
    badTarget? target = none ↔ ∀ name ∈ target, Query.VariableForm name := by
  cases target with
  | none => simp [badTarget?]
  | some name => simp [badTarget?, Query.isVariable_iff]

theorem isThing_eq_true {e : ClassExpression} : e.isThing = true ↔ e = thing := by
  cases e <;> simp [isThing]

theorem isNothing_eq_true {e : ClassExpression} : e.isNothing = true ↔ e = nothing := by
  cases e <;> simp [isNothing]

theorem patternFault?_eq_none {target : Option String} {e : ClassExpression} :
    e.patternFault? target = none ↔
      (e.normalized ≠ thing ∧ e.normalized ≠ nothing) ∧
        (∀ name ∈ target, Query.VariableForm name) ∧ ∀ s ∈ e.normalized.subterms, s.Supported := by
  unfold patternFault?
  by_cases bare : e.normalized.isThing || e.normalized.isNothing
  · rw [if_pos bare]
    rw [Bool.or_eq_true, isThing_eq_true, isNothing_eq_true] at bare
    simp only [reduceCtorEq, false_iff]
    rintro ⟨⟨notThing, notNothing⟩, _⟩
    exact bare.elim notThing notNothing
  · rw [if_neg bare]
    rw [Bool.or_eq_true, isThing_eq_true, isNothing_eq_true, not_or] at bare
    simp [bare, badTarget?_eq_none, fault?_eq_none_iff]

/-- With a good target and good names only, the fault is a construct without a pattern. -/
theorem unsupported_of_patternFault? {target : Option String} {e : ClassExpression}
    {failure : Failure} (form : ∀ name ∈ target, Query.VariableForm name)
    (names : ∀ s ∈ e.subterms, ∀ uri ∈ s.ownNames, Query.Quotable uri)
    (h : e.patternFault? target = some failure) : ∃ why, failure = .unsupported why := by
  unfold patternFault? at h
  split at h
  · cases h
    exact ⟨_, rfl⟩
  · rw [badTarget?_eq_none.2 form] at h
    exact unsupported_of_fault? (ownNames_normalized names) h

end ClassExpression

namespace Compiler

theorem pattern_meets (compiler : Compiler) (e : ClassExpression) (target : Option String) :
    Meets (e.patternFault? target) (compiler.pattern e target) :=
  ClassExpression.toPattern_meets compiler.mode target e

/-- There is a pattern if the normal form has constructs with a pattern only. -/
theorem exists_pattern (compiler : Compiler) {e : ClassExpression} {target : Option String}
    (bare : e.normalized ≠ .thing ∧ e.normalized ≠ .nothing)
    (form : ∀ name ∈ target, Query.VariableForm name)
    (supported : ∀ s ∈ e.normalized.subterms, s.Supported) :
    ∃ q, compiler.pattern e target = .ok q :=
  (compiler.pattern_meets e target).ok_iff.2
    (ClassExpression.patternFault?_eq_none.2 ⟨bare, form, supported⟩)

/-- Writing a pattern down adds no failure. -/
theorem text_meets (compiler : Compiler) (e : ClassExpression) (target : Option String) :
    Meets (e.patternFault? target) (compiler.text e target) := by
  have lowered := compiler.pattern_meets e target
  unfold text
  cases fault : e.patternFault? target with
  | none =>
      rw [fault] at lowered
      obtain ⟨q, hq⟩ := lowered
      obtain ⟨text, ht⟩ := Pattern.render_of_toPattern hq compiler.schema compiler.procedure
      exact ⟨text, by rw [hq]; exact ht⟩
  | some failure =>
      rw [fault] at lowered
      have failed : compiler.pattern e target = .error failure := lowered
      rw [failed]
      rfl

/-- A compiler has a pattern for exactly the expressions of the supported fragment.  It has a text for
the same expressions, and fails otherwise for the same reason; and so does any other compiler, whatever
its schema, mode and procedure.  With a good target and good names only, the reason is a construct
without a pattern. -/
theorem accepts_supported_fragment (compiler : Compiler) (e : ClassExpression)
    (target : Option String) :
    ((∃ q, compiler.pattern e target = .ok q) ↔
      (e.normalized ≠ .thing ∧ e.normalized ≠ .nothing) ∧
        (∀ name ∈ target, Query.VariableForm name) ∧ ∀ s ∈ e.normalized.subterms, s.Supported) ∧
    ((∃ text, compiler.text e target = .ok text) ↔ ∃ q, compiler.pattern e target = .ok q) ∧
    (∀ failure, compiler.text e target = .error failure ↔
      compiler.pattern e target = .error failure) ∧
    (∀ (other : Compiler) (failure : Failure), compiler.pattern e target = .error failure ↔
      other.pattern e target = .error failure) ∧
    ((∀ name ∈ target, Query.VariableForm name) →
      (∀ s ∈ e.subterms, ∀ uri ∈ s.ownNames, Query.Quotable uri) →
      ∀ failure, compiler.pattern e target = .error failure → ∃ why, failure = .unsupported why) := by
  have lowered := compiler.pattern_meets e target
  have written := compiler.text_meets e target
  refine ⟨?_, ?_, fun failure => ?_, fun other failure => ?_, fun form names failure failed => ?_⟩
  · rw [lowered.ok_iff, ClassExpression.patternFault?_eq_none]
  · rw [lowered.ok_iff, written.ok_iff]
  · rw [lowered.error_iff, written.error_iff]
  · rw [lowered.error_iff, (other.pattern_meets e target).error_iff]
  · exact ClassExpression.unsupported_of_patternFault? form names (lowered.error_iff.1 failed)

end Compiler

end Ontograph
