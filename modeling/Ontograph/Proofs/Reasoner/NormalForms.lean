import Ontograph.Proofs.Ontology.Spellings
import Ontograph.Proofs.Reasoner.Sessions

/-!
# Questions about normal forms

An expression can be spelled in many ways, and a reasoner takes all of them for one: what it asks and how
it reads the reply depend on the normal form alone.  Only the failure of a question that needs a named
class quotes the expression as it was given (`Failure.Alike`).

So a question may be spelled differently without a change of its answer, and all questions of a run without
a change of what the store sees (`Reasoner.after_congr`).

Main statement: `Reasoner.answers_by_normal_form`.
-/

namespace Ontograph

/-! ## Alike -/

/-- Failures that are the same up to the spelling of an expression that is quoted. -/
inductive Failure.Alike : Failure → Failure → Prop where
  | same (failure : Failure) : Alike failure failure
  | quoted (operation : String) {e e' : ClassExpression} (respelled : e.normalized = e'.normalized) :
      Alike (.unsupported (.anonymous operation e)) (.unsupported (.anonymous operation e'))

/-- Outcomes that are the same, or alike failures. -/
inductive AlikeOutcomes {α : Type} : Except Failure α → Except Failure α → Prop where
  | ok (a : α) : AlikeOutcomes (.ok a) (.ok a)
  | error {failure failure' : Failure} (alike : failure.Alike failure') :
      AlikeOutcomes (.error failure) (.error failure')

theorem AlikeOutcomes.refl {α : Type} (outcome : Except Failure α) :
    AlikeOutcomes outcome outcome := by
  cases outcome with
  | ok a => exact .ok a
  | error failure => exact .error (.same failure)

/-- Plans that are the same, or that fail alike without the store. -/
inductive Plan.Alike {α : Type} : Plan α → Plan α → Prop where
  | same (plan : Plan α) : Alike plan plan
  | failed {failure failure' : Failure} (alike : failure.Alike failure') :
      Alike (settled (.error failure)) (settled (.error failure'))

/-- Questions that differ in the spelling of expressions only. -/
inductive Question.Respelled : Question → Question → Prop where
  | same (question : Question) : Respelled question question
  | subClasses {e e' : ClassExpression} (respelled : e.normalized = e'.normalized) :
      Respelled (.subClasses e) (.subClasses e')
  | superClasses {e e' : ClassExpression} (respelled : e.normalized = e'.normalized) :
      Respelled (.superClasses e) (.superClasses e')
  | isSuperClassOf {upper upper' lower lower' : ClassExpression}
      (upper_respelled : upper.normalized = upper'.normalized)
      (lower_respelled : lower.normalized = lower'.normalized) :
      Respelled (.isSuperClassOf upper lower) (.isSuperClassOf upper' lower')
  | individuals {e e' : ClassExpression} (respelled : e.normalized = e'.normalized) :
      Respelled (.individuals e) (.individuals e')
  | hasType {e e' : ClassExpression} (respelled : e.normalized = e'.normalized) (individual : Uri) :
      Respelled (.hasType e individual) (.hasType e' individual)

namespace Plan.Alike

variable {α β σ : Type} {plan plan' : Plan α}

theorem map (h : plan.Alike plan') (f : α → β) : (plan.map f).Alike (plan'.map f) := by
  cases h with
  | same plan => exact .same _
  | failed alike => exact .failed alike

/-- Alike plans have alike outcomes and leave the same connection. -/
theorem run (h : plan.Alike plan') (store : GraphStore σ) (c : Connection σ) :
    AlikeOutcomes (plan.run store c).1 (plan'.run store c).1 ∧
      (plan.run store c).2 = (plan'.run store c).2 := by
  cases h with
  | same plan => exact ⟨.refl _, rfl⟩
  | failed alike => exact ⟨.error alike, rfl⟩

end Plan.Alike

namespace Reasoner

variable {σ : Type} (r : Reasoner) {e e' : ClassExpression}

/-! ## Named classes -/

/-- A named class is found in the normal form, and an expression that is none is quoted. -/
theorem namedClass_cases (operation : String) (respelled : e.normalized = e'.normalized) :
    (∃ uri, namedClass operation e = .ok uri ∧ namedClass operation e' = .ok uri) ∨
      ∃ failure failure' : Failure, namedClass operation e = .error failure ∧
        namedClass operation e' = .error failure' ∧ failure.Alike failure' := by
  unfold namedClass
  rw [respelled]
  cases e'.normalized.namedUri? with
  | some uri => exact .inl ⟨uri, rfl, rfl⟩
  | none => exact .inr ⟨_, _, rfl, rfl, .quoted operation respelled⟩

theorem namedClass_eq (operation : String) {uri : Uri} (named : e.normalized.namedUri? = some uri) :
    namedClass operation e = .ok uri := by
  rw [namedClass, named]

/-- An expression with a named normal form has an identifier. -/
theorem exists_namedUri (named : e.isAnonymous = false) : ∃ uri, e.namedUri? = some uri := by
  rwa [ClassExpression.isAnonymous, Option.isNone_eq_false_iff, Option.isSome_iff_exists] at named

/-! ## Plans -/

theorem alike_subClasses (respelled : e.normalized = e'.normalized) :
    (r.subClasses e).Alike (r.subClasses e') := by
  unfold subClasses
  obtain ⟨uri, he, he'⟩ | ⟨_, _, he, he', alike⟩ := namedClass_cases "sub_classes" respelled
  · rw [he, he']
    exact .same _
  · rw [he, he']
    exact .failed alike

theorem alike_superClasses (respelled : e.normalized = e'.normalized) :
    (r.superClasses e).Alike (r.superClasses e') := by
  unfold superClasses
  obtain ⟨uri, he, he'⟩ | ⟨_, _, he, he', alike⟩ := namedClass_cases "super_classes" respelled
  · rw [he, he']
    exact .same _
  · rw [he, he']
    exact .failed alike

/-- The upper class is looked at first, so it is the one that is quoted if both are anonymous. -/
theorem alike_isSuperClassOf {upper upper' lower lower' : ClassExpression}
    (upper_respelled : upper.normalized = upper'.normalized)
    (lower_respelled : lower.normalized = lower'.normalized) :
    (r.isSuperClassOf upper lower).Alike (r.isSuperClassOf upper' lower') := by
  unfold isSuperClassOf
  obtain ⟨sup, hu, hu'⟩ | ⟨_, _, hu, hu', alike⟩ :=
    namedClass_cases "is_super_class_of" upper_respelled
  · obtain ⟨sub, hl, hl'⟩ | ⟨_, _, hl, hl', alike⟩ :=
      namedClass_cases "is_super_class_of" lower_respelled
    · rw [hu, hu', hl, hl']
      exact .same _
    · rw [hu, hu', hl, hl']
      exact .failed alike
  · rw [hu, hu']
    exact .failed alike

theorem individuals_congr (respelled : e.normalized = e'.normalized) :
    r.individuals e = r.individuals e' := by
  unfold individuals
  rw [respelled]

/-- Questions that differ in the spelling of expressions have alike plans. -/
theorem alike_plan {question question' : Question} (h : question.Respelled question') :
    (r.plan question).Alike (r.plan question') := by
  cases h with
  | same question => exact .same _
  | subClasses respelled => exact (r.alike_subClasses respelled).map _
  | superClasses respelled => exact (r.alike_superClasses respelled).map _
  | isSuperClassOf upper lower => exact (r.alike_isSuperClassOf upper lower).map _
  | individuals respelled =>
      rw [plan, plan, r.individuals_congr respelled]
      exact .same _
  | hasType respelled individual =>
      rw [plan, plan, r.individuals_congr respelled]
      exact .same _

/-! ## Answers -/

/-- Questions that differ in the spelling of expressions have alike answers, and the store sees no
difference. -/
theorem alike_answer {question question' : Question} (h : question.Respelled question')
    (store : GraphStore σ) (c : Connection σ) :
    AlikeOutcomes (r.answer store question c).1 (r.answer store question' c).1 ∧
      (r.answer store question c).2 = (r.answer store question' c).2 :=
  (r.alike_plan h).run store c

/-- The questions of a run may be spelled differently without a difference for the store. -/
theorem after_congr (store : GraphStore σ) {asked asked' : List Question}
    (h : List.Forall₂ Question.Respelled asked asked') (c : Connection σ) :
    r.after store asked c = r.after store asked' c := by
  induction h generalizing c with
  | nil => rfl
  | @cons question question' rest rest' first others ih =>
      have next : (r.answer store question c).2 = (r.answer store question' c).2 :=
        (r.alike_answer first store c).2
      show r.after store rest (r.answer store question c).2 =
        r.after store rest' (r.answer store question' c).2
      rw [next, ih]

/-! ## Settled questions -/

theorem individuals_nothing (h : e.normalized = .nothing) : r.individuals e = .settled (.ok []) := by
  unfold individuals
  rw [h]
  rfl

theorem subClasses_nothing (h : e.normalized = .nothing) : r.subClasses e = .settled (.ok []) := by
  have named := namedClass_eq "sub_classes" (congrArg ClassExpression.namedUri? h)
  unfold subClasses
  rw [named]
  rfl

theorem superClasses_thing (h : e.normalized = .thing) : r.superClasses e = .settled (.ok []) := by
  have named := namedClass_eq "super_classes" (congrArg ClassExpression.namedUri? h)
  unfold superClasses
  rw [named]
  rfl

/-- A class is above another one without asking if it is the top class, the other one is the bottom
class, or they are the same class. -/
theorem isSuperClassOf_trivial {upper lower : ClassExpression}
    (upper_named : upper.normalized.isAnonymous = false)
    (lower_named : lower.normalized.isAnonymous = false)
    (above : upper.normalized = .thing ∨ lower.normalized = .nothing ∨
      upper.normalized = lower.normalized) :
    r.isSuperClassOf upper lower = .settled (.ok true) := by
  obtain ⟨sup, hsup⟩ := exists_namedUri upper_named
  obtain ⟨sub, hsub⟩ := exists_namedUri lower_named
  have trivially : sup = Vocabulary.owlThing ∨ sub = Vocabulary.owlNothing ∨ sup = sub := by
    rcases above with top | bottom | same
    · rw [top] at hsup
      exact .inl (Option.some.inj hsup).symm
    · rw [bottom] at hsub
      exact .inr (.inl (Option.some.inj hsub).symm)
    · rw [same, hsub] at hsup
      exact .inr (.inr (Option.some.inj hsup).symm)
  unfold isSuperClassOf
  rw [namedClass_eq _ hsup, namedClass_eq _ hsub]
  exact if_pos trivially

/-- What is made of a settled answer is there without the store. -/
theorem run_map_settled {α β : Type} {plan : Plan α} {a : α} (h : plan = .settled (.ok a)) (f : α → β)
    (store : GraphStore σ) (c : Connection σ) : (plan.map f).run store c = (.ok (f a), c) := by
  rw [h]
  rfl

/-- A reasoner sees normal forms only.  Expressions with the same normal form have the same individuals,
found by the same statements, and the questions about the hierarchy have the same answers and statements,
up to the expression that a failure quotes.  What the normal form settles is answered without the store,
whatever its state: nothing has no individuals and no subclasses, the top class no superclasses, and a
class is above another one that it is equal to, that is nothing, or if it is the top class. -/
theorem answers_by_normal_form (store : GraphStore σ) (c : Connection σ) :
    (∀ e e' : ClassExpression, e.normalized = e'.normalized →
      r.answer store (.individuals e) c = r.answer store (.individuals e') c ∧
      (∀ individual, r.answer store (.hasType e individual) c =
        r.answer store (.hasType e' individual) c) ∧
      (AlikeOutcomes (r.answer store (.subClasses e) c).1 (r.answer store (.subClasses e') c).1 ∧
        (r.answer store (.subClasses e) c).2 = (r.answer store (.subClasses e') c).2) ∧
      (AlikeOutcomes (r.answer store (.superClasses e) c).1
          (r.answer store (.superClasses e') c).1 ∧
        (r.answer store (.superClasses e) c).2 = (r.answer store (.superClasses e') c).2) ∧
      ∀ lower lower' : ClassExpression, lower.normalized = lower'.normalized →
        AlikeOutcomes (r.answer store (.isSuperClassOf e lower) c).1
            (r.answer store (.isSuperClassOf e' lower') c).1 ∧
          (r.answer store (.isSuperClassOf e lower) c).2 =
            (r.answer store (.isSuperClassOf e' lower') c).2) ∧
    (∀ e : ClassExpression, e.normalized = .nothing →
      r.answer store (.individuals e) c = (.ok (.uris []), c) ∧
        r.answer store (.subClasses e) c = (.ok (.uris []), c)) ∧
    (∀ e : ClassExpression, e.normalized = .thing →
      r.answer store (.superClasses e) c = (.ok (.uris []), c)) ∧
    ∀ upper lower : ClassExpression, upper.normalized.isAnonymous = false →
      lower.normalized.isAnonymous = false →
      (upper.normalized = .thing ∨ lower.normalized = .nothing ∨
        upper.normalized = lower.normalized) →
      r.answer store (.isSuperClassOf upper lower) c = (.ok (.truth true), c) := by
  refine ⟨fun e e' same => ⟨?_, fun individual => ?_, ?_, ?_, fun lower lower' below => ?_⟩,
    fun e h => ⟨?_, ?_⟩, fun e h => ?_, fun upper lower upper_named lower_named above => ?_⟩
  · rw [answer, answer, plan, plan, r.individuals_congr same]
  · rw [answer, answer, plan, plan, r.individuals_congr same]
  · exact r.alike_answer (.subClasses same) store c
  · exact r.alike_answer (.superClasses same) store c
  · exact r.alike_answer (.isSuperClassOf same below) store c
  · exact run_map_settled (r.individuals_nothing h) Answer.uris store c
  · exact run_map_settled (r.subClasses_nothing h) Answer.uris store c
  · exact run_map_settled (r.superClasses_thing h) Answer.uris store c
  · exact run_map_settled (r.isSuperClassOf_trivial upper_named lower_named above) Answer.truth store c

/-- The bottom class as a union of a union without operands and of its identifier. -/
def nestedNothing : ClassExpression :=
  .union [.union [], .named Vocabulary.owlNothing]

theorem normalized_nestedNothing : nestedNothing.normalized = .nothing := by
  have each : ∀ e ∈ [.union [], .named Vocabulary.owlNothing], ClassExpression.Spells .nothing e :=
    List.forall_mem_cons.2 ⟨.noOptions, List.forall_mem_singleton.2 (.named Vocabulary.owlNothing)⟩
  exact (ClassExpression.normalized_eq_iff_spells rfl).2 (.union (by simp) each)

theorem answers_by_normal_form_outage :
    let r := Reasoner.ofConfig {}
    let c : Connection Script := ⟨⟨[], some "connection refused"⟩, .empty⟩
    nestedNothing.normalized = .nothing ∧
      r.answer Script.store (.individuals nestedNothing) c = (.ok (.uris []), c) ∧
      r.answer Script.store (.isSuperClassOf (.named "http://e.org/C") nestedNothing) c =
        (.ok (.truth true), c) ∧
      (r.answer Script.store (.superClasses nestedNothing) c).2 =
        (r.answer Script.store (.superClasses .nothing) c).2 := by
  obtain ⟨respelled, bottom, _, above⟩ := answers_by_normal_form (ofConfig {}) Script.store
    ⟨⟨[], some "connection refused"⟩, .empty⟩
  have normal := normalized_nestedNothing
  have named : nestedNothing.normalized.isAnonymous = false := by
    rw [normal]
    rfl
  exact ⟨normal, (bottom _ normal).1, above _ _ rfl named (.inr (.inl normal)),
    (respelled nestedNothing .nothing normal).2.2.2.1.2⟩

end Reasoner

end Ontograph
