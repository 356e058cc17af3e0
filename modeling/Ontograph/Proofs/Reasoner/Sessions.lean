import Ontograph.Graph.Script
import Ontograph.Proofs.Query.Fragment
import Ontograph.Reasoner.Questions

/-!
# Sessions

What a question can do to a store.  Some failures are found before anything is asked
(`Failure.IsEarly`), others only in a reply (`Failure.IsLate`), and the plan of every question keeps the
two apart (`Reasoner.disciplined_plan`).  So a question takes one of four courses (`Course`): it is
settled without the store, no session can be opened, the statement fails, or it is answered.

What holds after one question holds after any number of them: the run starts with a balanced journal
and every course keeps it balanced.

Main statements: `Reasoner.course_answer` (one question), `Reasoner.balanced_after` (a run of questions)
and `Reasoner.sessions_in_order` (both, with what a failure says about the store).
-/

namespace Ontograph

/-! ## Failures by the time they are found -/

namespace Failure

/-- The failures that are found before the store is asked. -/
inductive IsEarly : Failure → Prop where
  | unsupported (why : Unsupported) : IsEarly (.unsupported why)
  | unregistered (query : CatalogQuery) : IsEarly (.unregistered query)
  | invalidIdentifier (text : String) : IsEarly (.invalidIdentifier text)

/-- The failures that are found in a reply of the store. -/
inductive IsLate : Failure → Prop where
  | notFound (individual : Uri) : IsLate (.notFound individual)
  | unexpectedValue (column : String) (mismatch : Mismatch) : IsLate (.unexpectedValue column mismatch)

end Failure

/-- All failures of an attempt are of one sort. -/
def FailsOnly {α : Type} (sort : Failure → Prop) (attempt : Except Failure α) : Prop :=
  ∀ failure, attempt = .error failure → sort failure

namespace FailsOnly

variable {α β : Type} {sort : Failure → Prop}

theorem ok (a : α) : FailsOnly sort (.ok a) := by
  intro failure failed
  cases failed

theorem error {failure : Failure} (h : sort failure) :
    FailsOnly sort (.error failure : Except Failure α) := by
  intro other failed
  cases failed
  exact h

theorem bind {x : Except Failure α} {f : α → Except Failure β} (first : FailsOnly sort x)
    (second : ∀ a, FailsOnly sort (f a)) : FailsOnly sort (x >>= f) := by
  cases x with
  | error failure => exact error (first failure rfl)
  | ok a => exact second a

theorem map {x : Except Failure α} {f : α → β} (h : FailsOnly sort x) : FailsOnly sort (x.map f) := by
  cases x with
  | error failure => exact error (h failure rfl)
  | ok a => exact ok (f a)

theorem mapM {f : β → Except Failure α} (l : List β) (each : ∀ b, FailsOnly sort (f b)) :
    FailsOnly sort (l.mapM f) := by
  induction l with
  | nil => exact ok []
  | cons b rest ih =>
      rw [List.mapM_cons]
      exact (each b).bind fun a => ih.bind fun as => ok (a :: as)

/-- An attempt that meets its fault fails with nothing else. -/
theorem of_meets {fault : Option Failure} {x : Except Failure α} (h : Meets fault x)
    (each : ∀ failure, fault = some failure → sort failure) : FailsOnly sort x := by
  intro failure failed
  exact each failure (h.error_iff.1 failed)

end FailsOnly

/-! ## Early failures -/

open Failure

theorem Query.isEarly_of_nameFault? {uri : Uri} {failure : Failure}
    (h : nameFault? uri = some failure) : failure.IsEarly := by
  unfold nameFault? at h
  split at h
  · cases h
  · cases h
    exact .invalidIdentifier uri

theorem Query.isEarly_of_literalFault? {value : Literal} {failure : Failure}
    (h : literalFault? value = some failure) : failure.IsEarly := by
  cases value with
  | float x =>
      simp only [literalFault?] at h
      split at h
      · cases h
      · cases h
        exact .unsupported _
  | integer | string | boolean => cases h

namespace ClassExpression

theorem isEarly_of_classFault? {e : ClassExpression} {failure : Failure}
    (h : e.classFault? = some failure) : failure.IsEarly := by
  obtain ⟨uri, _, bad⟩ := List.exists_of_findSome?_eq_some h
  exact Query.isEarly_of_nameFault? bad

theorem isEarly_of_restrictionFault? {e : ClassExpression} {failure : Failure}
    (h : e.restrictionFault? = some failure) : failure.IsEarly := by
  induction e using induction with
  | thing | nothing | named => cases h
  | intersection operands ih =>
      rw [restrictionFault?] at h
      induction operands with
      | nil => cases h
      | cons a rest step =>
          obtain ⟨first, others⟩ := List.forall_mem_cons.1 ih
          rw [restrictionFaultList?] at h
          rcases (Option.orElse_eq_some _ _ _).1 h with bad | ⟨_, bad⟩
          · exact first bad
          · exact step others bad
  | objectSome property filler ih =>
      rw [restrictionFault?] at h
      rcases (Option.orElse_eq_some _ _ _).1 h with bad | ⟨_, h⟩
      · exact Query.isEarly_of_nameFault? bad
      · rcases (Option.orElse_eq_some _ _ _).1 h with bad | ⟨_, bad⟩
        · exact isEarly_of_classFault? bad
        · exact ih bad
  | objectHas | dataSome => exact Query.isEarly_of_nameFault? h
  | dataHas property value =>
      rw [restrictionFault?] at h
      rcases (Option.orElse_eq_some _ _ _).1 h with bad | ⟨_, bad⟩
      · exact Query.isEarly_of_nameFault? bad
      · exact Query.isEarly_of_literalFault? bad
  | union | complement | objectAll | objectCardinality | dataAll =>
      cases h
      exact .unsupported _

theorem isEarly_of_patternFault? {target : Option String} {e : ClassExpression} {failure : Failure}
    (h : e.patternFault? target = some failure) : failure.IsEarly := by
  unfold patternFault? at h
  split at h
  · cases h
    exact .unsupported _
  · rcases (Option.orElse_eq_some _ _ _).1 h with bad | ⟨_, bad⟩
    · obtain ⟨name, _, rfl⟩ := Option.map_eq_some_iff.1 bad
      exact .invalidIdentifier name
    · rcases (Option.orElse_eq_some _ _ _).1 bad with bad | ⟨_, bad⟩
      · exact isEarly_of_classFault? bad
      · exact isEarly_of_restrictionFault? bad

end ClassExpression

theorem Compiler.text_early (compiler : Compiler) (e : ClassExpression) (target : Option String) :
    FailsOnly IsEarly (compiler.text e target) :=
  .of_meets (compiler.text_meets e target) fun _ h => ClassExpression.isEarly_of_patternFault? h

namespace Catalog

theorem get_early (catalog : Catalog) (query : CatalogQuery) :
    FailsOnly IsEarly (catalog.get query) := by
  unfold get
  split
  · exact .ok _
  · exact .error (.unregistered query)

theorem keyed_early (catalog : Catalog) (query : CatalogQuery) (property : Uri) :
    FailsOnly IsEarly (catalog.keyed query property) := by
  have quoted : FailsOnly IsEarly (Query.uriName property) :=
    .of_meets (Query.uriName_meets property) fun _ h => Query.isEarly_of_nameFault? h
  exact (get_early catalog query).bind fun _ => quoted.bind fun _ => .ok _

end Catalog

/-! ## Late failures -/

namespace Row

theorem column_late (row : Row) (name : String) : FailsOnly IsLate (row.column name) := by
  unfold column
  split
  · exact .ok _
  · exact .error (.unexpectedValue name .missing)

theorem uri_late (schema : Schema) (row : Row) (column : String) :
    FailsOnly IsLate (row.uri schema column) := by
  refine (row.column_late column).bind fun value => ?_
  unfold Value.uri
  split
  · exact .ok _
  · split
    · exact .ok _
    · exact .error (.unexpectedValue column _)
  · exact .error (.unexpectedValue column _)

theorem uris_late (schema : Schema) (rows : List Row) (column : String) :
    FailsOnly IsLate (Row.uris schema rows column) :=
  (FailsOnly.mapM rows fun row => row.uri_late schema column).bind fun _ => .ok _

end Row

namespace Reasoner

theorem group_late {α : Type} [Ord α] {entry : Row → Except Failure (Uri × List α)}
    (each : ∀ row, FailsOnly IsLate (entry row)) (rows : List Row) :
    FailsOnly IsLate (group entry rows) :=
  (FailsOnly.mapM rows each).bind fun _ => .ok _

theorem linkOf_late (r : Reasoner) (source target : String) (row : Row) :
    FailsOnly IsLate (r.linkOf source target row) :=
  (row.uri_late r.schema source).bind fun _ => (row.uri_late r.schema target).bind fun _ => .ok _

theorem valuesOf_late (r : Reasoner) (row : Row) : FailsOnly IsLate (r.valuesOf row) :=
  (row.uri_late r.schema _).bind fun _ => (row.column_late _).bind fun _ => .ok _

end Reasoner

/-! ## Plans -/

namespace Plan

variable {α β : Type}

/-- What is settled without the store fails early, and what is read from a reply fails late. -/
inductive Disciplined : Plan α → Prop where
  | settled {outcome : Except Failure α} (early : FailsOnly IsEarly outcome) :
      Disciplined (.settled outcome)
  | ask {statement : Statement} {read : List Row → Except Failure α}
      (late : ∀ rows, FailsOnly IsLate (read rows)) : Disciplined (.ask statement read)

theorem Disciplined.map {plan : Plan α} (h : plan.Disciplined) (f : α → β) :
    (plan.map f).Disciplined := by
  cases h with
  | settled early => exact .settled early.map
  | ask late => exact .ask fun rows => (late rows).map

theorem Disciplined.askText {text : Except Failure String} {parameters : List (String × String)}
    {read : List Row → Except Failure α} (early : FailsOnly IsEarly text)
    (late : ∀ rows, FailsOnly IsLate (read rows)) :
    (Plan.askText text parameters read).Disciplined := by
  cases text with
  | error failure => exact .settled (.error (early failure rfl))
  | ok text => exact .ask late

end Plan

namespace Reasoner

open Plan

variable (r : Reasoner)

theorem disciplined_query {α : Type} (query : CatalogQuery) (parameters : List (String × String))
    {read : List Row → Except Failure α} (late : ∀ rows, FailsOnly IsLate (read rows)) :
    (r.query query parameters read).Disciplined :=
  .askText (r.catalog.get_early query) late

theorem disciplined_list (query : CatalogQuery) : (r.list query).Disciplined :=
  r.disciplined_query query _ fun rows => Row.uris_late r.schema rows _

theorem disciplined_listFor (query : CatalogQuery) (uri : Uri) :
    (r.listFor query uri).Disciplined :=
  r.disciplined_query query _ fun rows => Row.uris_late r.schema rows _

theorem namedClass_early (operation : String) (e : ClassExpression) :
    FailsOnly IsEarly (namedClass operation e) := by
  unfold namedClass
  split
  · exact .ok _
  · exact .error (.unsupported _)

theorem disciplined_subClasses (e : ClassExpression) : (r.subClasses e).Disciplined := by
  unfold subClasses
  split
  · next failed => exact .settled (.error (namedClass_early _ e _ failed))
  · split
    · exact .settled (.ok [])
    · split
      · exact r.disciplined_listFor _ _
      · exact r.disciplined_listFor _ _

theorem disciplined_superClasses (e : ClassExpression) : (r.superClasses e).Disciplined := by
  unfold superClasses
  split
  · next failed => exact .settled (.error (namedClass_early _ e _ failed))
  · split
    · exact .settled (.ok [])
    · exact r.disciplined_listFor _ _

theorem disciplined_isSuperClassOf (upper lower : ClassExpression) :
    (r.isSuperClassOf upper lower).Disciplined := by
  unfold isSuperClassOf
  split
  · next failed => exact .settled (.error (namedClass_early _ upper _ failed))
  · next failed _ => exact .settled (.error (namedClass_early _ lower _ failed))
  · split
    · exact .settled (.ok true)
    · exact r.disciplined_query _ _ fun rows => .ok _

/-- The individuals of an expression are asked for only if it has a text. -/
theorem disciplined_individuals (e : ClassExpression) : (r.individuals e).Disciplined := by
  have late : ∀ rows, FailsOnly IsLate (Row.uris r.schema rows Column.individual) :=
    fun rows => Row.uris_late r.schema rows _
  unfold individuals
  simp only
  split
  · exact .settled (.ok [])
  · split
    · exact r.disciplined_query _ _ late
    · exact .askText (r.compiler.text_early _ _) late

theorem disciplined_dataPropertyRelationships (individual : Uri) :
    (r.dataPropertyRelationships individual).Disciplined := by
  refine r.disciplined_query _ _ fun rows => ?_
  cases rows with
  | nil => exact .error (.notFound individual)
  | cons row rest =>
      refine (row.column_late _).bind fun value => ?_
      cases value <;>
        first
          | exact .ok _
          | exact .error (.unexpectedValue _ _)

/-- Every question keeps early and late failures apart. -/
theorem disciplined_plan (question : Question) : (r.plan question).Disciplined := by
  cases question with
  | classes | objectProperties | dataProperties => exact (r.disciplined_list _).map _
  | dataPropertiesWithRange filter => exact (r.disciplined_list _).map _
  | subClasses e => exact (r.disciplined_subClasses e).map _
  | superClasses e => exact (r.disciplined_superClasses e).map _
  | isSuperClassOf upper lower => exact (r.disciplined_isSuperClassOf upper lower).map _
  | subObjectProperties p | superObjectProperties p | subDataProperties p | superDataProperties p =>
      exact (r.disciplined_listFor _ p).map _
  | objectPropertyDomain p | objectPropertyRange p | dataPropertyDomain p =>
      exact ((r.disciplined_listFor _ p).map _).map _
  | dataPropertyRange p => exact (r.disciplined_listFor _ p).map _
  | individuals e => exact (r.disciplined_individuals e).map _
  | hasType e individual => exact (r.disciplined_individuals e).map _
  | objectPropertyRelationships individual =>
      exact (r.disciplined_query _ _ (group_late (r.linkOf_late _ _))).map _
  | dataPropertyRelationships individual =>
      exact (r.disciplined_dataPropertyRelationships individual).map _
  | objectPropertyMembers p =>
      exact (Disciplined.askText (r.catalog.keyed_early _ p) (group_late (r.linkOf_late _ _))).map _
  | dataPropertyMembers p =>
      exact (Disciplined.askText (r.catalog.keyed_early _ p) (group_late r.valuesOf_late)).map _

end Reasoner

/-! ## Courses -/

namespace GraphStore

variable {σ : Type}

/-- Asked for a statement, a store cannot open a session or cannot run the statement. -/
def Fails (store : GraphStore σ) (state : σ) (statement : Statement) (failure : StoreFailure) : Prop :=
  (∃ s, store.openSession state = (.error failure, s)) ∨
    ∃ s t, store.openSession state = (.ok (), s) ∧ store.run statement s = (.error failure, t)

/-- Asked for a statement, a store opens a session and replies with rows. -/
def Replies (store : GraphStore σ) (state : σ) (statement : Statement) (rows : List Row) : Prop :=
  ∃ s t, store.openSession state = (.ok (), s) ∧ store.run statement s = (.ok rows, t)

end GraphStore

namespace Plan

variable {α β σ : Type} {store : GraphStore σ} {c : Connection σ}

/-- What is made of an answer is made of it after the run. -/
theorem run_map (f : α → β) (plan : Plan α) :
    ((plan.map f).run store c).1 = (plan.run store c).1.map f := by
  cases plan with
  | settled outcome => rfl
  | ask statement read =>
      simp only [map, run]
      split <;> rfl

/-- If the store replies, the rows are read. -/
theorem run_ask {statement : Statement} {rows : List Row} (read : List Row → Except Failure α)
    (replied : store.Replies c.state statement rows) :
    ((ask statement read).run store c).1 = read rows := by
  obtain ⟨s, t, opening, running⟩ := replied
  simp [run, Connection.exchange, Connection.openSession, Connection.send, opening, running]

end Plan

/-- The journal after one more session with one statement. -/
def Journal.withSession (journal : Journal) (statement : Statement) : Journal :=
  ⟨journal.opened + 1, journal.closed + 1, journal.statements ++ [statement]⟩

theorem Journal.Balanced.withSession {journal : Journal} (h : journal.Balanced)
    (statement : Statement) : (journal.withSession statement).Balanced := by
  obtain ⟨closed, sent⟩ := h
  refine ⟨congrArg (· + 1) closed, ?_⟩
  simp [Journal.withSession, sent]

/-- What a plan can come to, with the connection before and after it. -/
inductive Course {α σ : Type} (store : GraphStore σ) (c : Connection σ) :
    Plan α → Except Failure α → Connection σ → Prop where
  /-- The store is not asked. -/
  | settled {outcome : Except Failure α} (early : FailsOnly IsEarly outcome) :
      Course store c (.settled outcome) outcome c
  /-- No session can be opened. -/
  | refused {statement : Statement} {read : List Row → Except Failure α} {failure : StoreFailure}
      {s : σ} (opening : store.openSession c.state = (.error failure, s)) :
      Course store c (.ask statement read) (.error (.storeUnavailable failure)) ⟨s, c.journal⟩
  /-- The statement fails. -/
  | failed {statement : Statement} {read : List Row → Except Failure α} {failure : StoreFailure}
      {s t : σ} (opening : store.openSession c.state = (.ok (), s))
      (running : store.run statement s = (.error failure, t)) :
      Course store c (.ask statement read) (.error (.storeUnavailable failure))
        ⟨store.closeSession t, c.journal.withSession statement⟩
  /-- The statement is answered. -/
  | answered {statement : Statement} {read : List Row → Except Failure α} {rows : List Row} {s t : σ}
      (opening : store.openSession c.state = (.ok (), s))
      (running : store.run statement s = (.ok rows, t)) (late : FailsOnly IsLate (read rows)) :
      Course store c (.ask statement read) (read rows)
        ⟨store.closeSession t, c.journal.withSession statement⟩

/-- A plan that keeps early and late failures apart takes one of the courses. -/
theorem Plan.Disciplined.course {α σ : Type} {plan : Plan α} (h : plan.Disciplined)
    (store : GraphStore σ) (c : Connection σ) :
    Course store c plan (plan.run store c).1 (plan.run store c).2 := by
  cases h with
  | settled early => exact .settled early
  | @ask statement read late =>
      rcases opening : store.openSession c.state with ⟨_ | _, s⟩
      · simp only [Plan.run, Connection.exchange, Connection.openSession, opening]
        exact .refused opening
      · rcases running : store.run statement s with ⟨_ | rows, t⟩
        · simp only [Plan.run, Connection.exchange, Connection.openSession, Connection.send,
            Connection.closeSession, opening, running]
          exact .failed opening running
        · simp only [Plan.run, Connection.exchange, Connection.openSession, Connection.send,
            Connection.closeSession, opening, running]
          exact .answered opening running (late rows)

namespace Course

variable {α σ : Type} {store : GraphStore σ} {c c' : Connection σ} {plan : Plan α}
  {outcome : Except Failure α}

/-- Every course keeps the journal balanced. -/
theorem balanced (h : Course store c plan outcome c') (before : c.journal.Balanced) :
    c'.journal.Balanced := by
  cases h with
  | settled | refused => exact before
  | failed | answered => exact before.withSession _

theorem opened_le (h : Course store c plan outcome c') :
    c'.journal.opened ≤ c.journal.opened + 1 := by
  cases h with
  | settled | refused => exact Nat.le_succ _
  | failed | answered => exact Nat.le_refl _

/-- After an early failure nothing was asked. -/
theorem untouched (h : Course store c plan outcome c') {failure : Failure}
    (failed : outcome = .error failure) (early : failure.IsEarly) : c' = c := by
  cases h with
  | settled => rfl
  | refused | failed =>
      cases failed
      cases early
  | answered opening running late =>
      cases late failure failed <;> cases early

/-- After a late failure one statement was sent, and the store replied. -/
theorem replied (h : Course store c plan outcome c') {failure : Failure}
    (failed : outcome = .error failure) (late : failure.IsLate) :
    ∃ statement rows, store.Replies c.state statement rows ∧
      c'.journal.statements = c.journal.statements ++ [statement] := by
  cases h with
  | settled early =>
      cases early failure failed <;> cases late
  | refused | failed =>
      cases failed
      cases late
  | @answered statement _ rows s t opening running _ =>
      exact ⟨statement, rows, ⟨s, t, opening, running⟩, rfl⟩

/-- The store is found unavailable exactly if it fails, and with its own words. -/
theorem unavailable_iff (h : Course store c plan outcome c') {failure : StoreFailure} :
    outcome = .error (.storeUnavailable failure) ↔
      ∃ statement, plan.statement? = some statement ∧ store.Fails c.state statement failure := by
  cases h with
  | settled early =>
      constructor
      · intro failed
        cases early _ failed
      · rintro ⟨_, asked, _⟩
        cases asked
  | @refused statement read own s opening =>
      constructor
      · intro failed
        cases failed
        exact ⟨statement, rfl, .inl ⟨s, opening⟩⟩
      · rintro ⟨_, _, ⟨_, fails⟩ | ⟨_, _, opens, _⟩⟩
        · cases opening.symm.trans fails
          rfl
        · cases opening.symm.trans opens
  | @failed statement read own s t opening running =>
      constructor
      · intro failed
        cases failed
        exact ⟨statement, rfl, .inr ⟨s, t, opening, running⟩⟩
      · rintro ⟨_, asked, ⟨_, fails⟩ | ⟨_, _, opens, fails⟩⟩
        · cases opening.symm.trans fails
        · cases asked
          cases opening.symm.trans opens
          cases running.symm.trans fails
          rfl
  | @answered statement read rows s t opening running late =>
      constructor
      · intro failed
        cases late _ failed
      · rintro ⟨_, asked, ⟨_, fails⟩ | ⟨_, _, opens, fails⟩⟩
        · cases opening.symm.trans fails
        · cases asked
          cases opening.symm.trans opens
          cases running.symm.trans fails

end Course

/-! ## Runs -/

namespace Reasoner

variable {σ : Type}

/-- The connection after some questions. -/
def after (r : Reasoner) (store : GraphStore σ) (asked : List Question) (c : Connection σ) :
    Connection σ :=
  asked.foldl (fun c question => (r.answer store question c).2) c

/-- Every question takes one of the courses. -/
theorem course_answer (r : Reasoner) (store : GraphStore σ) (question : Question)
    (c : Connection σ) :
    Course store c (r.plan question) (r.answer store question c).1 (r.answer store question c).2 :=
  (r.disciplined_plan question).course store c

/-- After any number of questions the journal is balanced. -/
theorem balanced_after (r : Reasoner) (store : GraphStore σ) (asked : List Question)
    {c : Connection σ} (h : c.journal.Balanced) : (r.after store asked c).journal.Balanced := by
  induction asked generalizing c with
  | nil => exact h
  | cons question rest ih => exact ih ((r.course_answer store question c).balanced h)

/-- In a run of questions, whatever the store does: after each question every open session was closed
and each one sent one statement; a question opens at most one session; one that fails before the store
is asked leaves it alone; one that fails over a reply has sent one statement, which was answered; and
the store is found unavailable exactly if it fails, with the failure as it gave it. -/
theorem sessions_in_order (r : Reasoner) (store : GraphStore σ) (state : σ) (asked : List Question)
    (question : Question) (outcome : Except Failure Answer) (c c' : Connection σ)
    (before : c = r.after store asked ⟨state, .empty⟩)
    (answered : r.answer store question c = (outcome, c')) :
    c'.journal.Balanced ∧
    c'.journal.opened ≤ c.journal.opened + 1 ∧
    (∀ failure, outcome = .error failure → failure.IsEarly → c' = c) ∧
    (∀ failure, outcome = .error failure → failure.IsLate →
      ∃ statement rows, store.Replies c.state statement rows ∧
        c'.journal.statements = c.journal.statements ++ [statement]) ∧
    (∀ failure, outcome = .error (.storeUnavailable failure) ↔
      ∃ statement, (r.plan question).statement? = some statement ∧
        store.Fails c.state statement failure) := by
  have course := r.course_answer store question c
  rw [answered] at course
  have balanced : c.journal.Balanced := by
    rw [before]
    exact r.balanced_after store asked ⟨rfl, rfl⟩
  exact ⟨course.balanced balanced, course.opened_le, fun _ => course.untouched,
    fun _ => course.replied, fun _ => course.unavailable_iff⟩

theorem sessions_in_order_notFound :
    ∃ c', (Reasoner.ofConfig {}).answer Script.store (.dataPropertyRelationships "i")
          ((Reasoner.ofConfig {}).after Script.store [.classes, .superClasses .thing]
            ⟨.empty, .empty⟩) = (.error (.notFound "i"), c') ∧
      c'.journal.opened = 2 ∧ c'.journal.Balanced ∧
      ∃ statement rows, Script.store.Replies .empty statement rows :=
  have answered := rfl
  have run := sessions_in_order (Reasoner.ofConfig {}) Script.store .empty [.classes, .superClasses .thing]
    (.dataPropertyRelationships "i") (.error (.notFound "i")) _ _ rfl answered
  have ⟨statement, rows, replies, _⟩ := run.2.2.2.1 _ rfl (.notFound "i")
  ⟨_, answered, rfl, run.1, statement, rows, replies⟩

end Reasoner

end Ontograph
