import Ontograph.Failure
import Ontograph.Graph.Value

/-!
# Graph stores and sessions

A store is known by what it does when a session is opened, when a statement is run in it, and when it
is closed; each may change the state of the store.  A connection is that state together with a journal
of the sessions and statements so far.

Nothing is ever asked but in one way (`Connection.exchange`): a session is opened, one statement is run
in it, and the session is closed whatever came of it.

Main statements: `Journal.Balanced` (every open session was closed, and each one sent one statement)
is kept by every exchange (`exchange_balanced`).
-/

namespace Ontograph

/-- What a graph store does, with states in `σ`. -/
structure GraphStore (σ : Type) where
  openSession : σ → Except StoreFailure Unit × σ
  run : Statement → σ → Except StoreFailure (List Row) × σ
  closeSession : σ → σ

/-- The sessions opened and closed and the statements sent, in order. -/
structure Journal where
  opened : Nat
  closed : Nat
  statements : List Statement

/-- The state of a store and the journal. -/
structure Connection (σ : Type) where
  state : σ
  journal : Journal

namespace Journal

/-- Before the first session. -/
def empty : Journal := ⟨0, 0, []⟩

/-- Every session was closed, and each one sent one statement. -/
def Balanced (journal : Journal) : Prop :=
  journal.opened = journal.closed ∧ journal.opened = journal.statements.length

end Journal

namespace Connection

variable {σ : Type}

/-- Opens a session; one that cannot be opened does not count. -/
def openSession (store : GraphStore σ) (c : Connection σ) :
    Except StoreFailure Unit × Connection σ :=
  match store.openSession c.state with
  | (.ok (), state) => (.ok (), ⟨state, { c.journal with opened := c.journal.opened + 1 }⟩)
  | (.error failure, state) => (.error failure, ⟨state, c.journal⟩)

/-- Runs a statement. -/
def send (store : GraphStore σ) (statement : Statement) (c : Connection σ) :
    Except StoreFailure (List Row) × Connection σ :=
  let (reply, state) := store.run statement c.state
  (reply, ⟨state, { c.journal with statements := c.journal.statements ++ [statement] }⟩)

/-- Closes a session. -/
def closeSession (store : GraphStore σ) (c : Connection σ) : Connection σ :=
  ⟨store.closeSession c.state, { c.journal with closed := c.journal.closed + 1 }⟩

/-- Sends one statement in a session of its own. -/
def exchange (store : GraphStore σ) (statement : Statement) (c : Connection σ) :
    Except StoreFailure (List Row) × Connection σ :=
  match c.openSession store with
  | (.error failure, c) => (.error failure, c)
  | (.ok (), c) =>
      let (reply, c) := c.send store statement
      (reply, c.closeSession store)

theorem exchange_balanced (store : GraphStore σ) (statement : Statement) {c : Connection σ}
    (h : c.journal.Balanced) : (c.exchange store statement).2.journal.Balanced := by
  unfold exchange openSession
  rcases store.openSession c.state with ⟨_ | _, state⟩
  · exact h
  · simp only [send, closeSession, Journal.Balanced, List.length_append, List.length_singleton]
    exact ⟨by rw [h.1], by rw [h.2]⟩

end Connection

end Ontograph
