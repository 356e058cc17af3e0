import Ontograph.Graph.Store

/-!
# Plans

A plan is what it takes to answer a question: either the outcome is settled without the store, or one
statement is sent and the rows of the reply are read.
-/

namespace Ontograph

/-- What it takes to find an answer. -/
inductive Plan (α : Type) where
  /-- The outcome needs no store. -/
  | settled (outcome : Except Failure α)
  /-- One statement, and how to read the rows of the reply. -/
  | ask (statement : Statement) (read : List Row → Except Failure α)

namespace Plan

variable {α β σ : Type}

/-- The plan whose answer is made from the answer of another. -/
def map (f : α → β) : Plan α → Plan β
  | settled outcome => settled (outcome.map f)
  | ask statement read => ask statement fun rows => (read rows).map f

/-- Asks for a text that may not be available. -/
def askText (text : Except Failure String) (parameters : List (String × String))
    (read : List Row → Except Failure α) : Plan α :=
  match text with
  | .error failure => settled (.error failure)
  | .ok text =>
      ask (parameters.foldl (fun statement e => statement.bind e.1 (.string e.2))
        (Statement.ofText text)) read

/-- Carries out a plan. -/
def run (store : GraphStore σ) (c : Connection σ) : Plan α → Except Failure α × Connection σ
  | settled outcome => (outcome, c)
  | ask statement read =>
      match c.exchange store statement with
      | (.error failure, c) => (.error (.storeUnavailable failure), c)
      | (.ok rows, c) => (read rows, c)

/-- The statement of a plan, if it has one. -/
def statement? : Plan α → Option Statement
  | settled _ => none
  | ask statement _ => some statement

theorem run_balanced (store : GraphStore σ) {c : Connection σ} (plan : Plan α)
    (h : c.journal.Balanced) : (plan.run store c).2.journal.Balanced := by
  cases plan with
  | settled outcome => exact h
  | ask statement read =>
      have kept := Connection.exchange_balanced store statement h
      simp only [run]
      split <;> simp_all

end Plan

end Ontograph
