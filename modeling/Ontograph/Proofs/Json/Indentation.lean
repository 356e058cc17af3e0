import Ontograph.Proofs.Json.RoundTrip

/-!
# Indented texts are read back

An indented text has blanks where the compact one has none: new lines and the spaces of a level before an
element, a member or the end of a container, and a space after a colon.  Scanning skips blanks between two
tokens, so an indented text is cut into the tokens of its value like the compact one.

Main statement: `parse?_indented`.
-/

namespace Ontograph.Json

namespace Scan

variable {rest : List Char} {done : List Token}

/-! ## Blanks -/

theorem tokens?_blank {c : Char} (blank : Token.isBlank c = true) :
    tokens? (c :: rest) done = tokens? rest done := by
  rw [tokens?, run]
  simp only [step, begin, blank, if_true]
  rfl

theorem tokens?_newline (level : Nat) : tokens? (newline level rest) done = tokens? rest done := by
  have spaces : ∀ n, tokens? (List.replicate n ' ' ++ rest) done = tokens? rest done := by
    intro n
    induction n with
    | zero => rfl
    | succ n ih => rw [List.replicate_succ, List.cons_append, tokens?_blank rfl, ih]
  rw [newline, tokens?_blank rfl, spaces]

/-! ## Values -/

/-- What comes after the first element of an array ends a word. -/
theorem stops_indentItems (level : Nat) (items : List Json) :
    Stops Token.isWordChar (indentItems rest level items) := by
  cases items <;> exact stops_cons.2 (by decide)

theorem stops_indentMembers (level : Nat) (members : List (String × Json)) :
    Stops Token.isWordChar (indentMembers rest level members) := by
  rcases members with _ | ⟨⟨key, v⟩, members⟩ <;> exact stops_cons.2 (by decide)

/-- Wherever its indented text ends a word, it is cut into the tokens of the value. -/
def Laid (v : Json) : Prop :=
  ∀ rest level done, Stops Token.isWordChar rest →
    tokens? (indent rest level v) done = tokens? rest (v.tokens.reverse ++ done)

theorem tokens?_indentItems {items : List Json} (each : ∀ v ∈ items, Laid v) (level : Nat) :
    tokens? (indentItems rest level items) done =
      tokens? rest ((itemTokens items).reverse ++ done) := by
  induction items generalizing done with
  | nil => exact (tokens?_newline level).trans (tokens?_mark rfl)
  | cons v items ih =>
      obtain ⟨first, others⟩ := List.forall_mem_cons.1 each
      rw [indentItems, tokens?_mark rfl, tokens?_newline,
        first _ _ _ (stops_indentItems level items), ih others, itemTokens]
      simp

theorem tokens?_indentMembers {members : List (String × Json)}
    (each : ∀ member ∈ members, Laid member.2) (level : Nat) :
    tokens? (indentMembers rest level members) done =
      tokens? rest ((memberTokens members).reverse ++ done) := by
  induction members generalizing done with
  | nil => exact (tokens?_newline level).trans (tokens?_mark rfl)
  | cons member members ih =>
      obtain ⟨key, v⟩ := member
      obtain ⟨first, others⟩ := List.forall_mem_cons.1 each
      rw [indentMembers, tokens?_mark rfl, tokens?_newline, tokens?_string, tokens?_mark rfl,
        tokens?_blank rfl, first _ _ _ (stops_indentMembers level members), ih others, memberTokens]
      simp

theorem laid_of_writable {v : Json} (writable : v.Writable) : Laid v := by
  induction writable with
  | null => exact fun rest _ done => scanned_of_writable .null rest done
  | bool b => exact fun rest _ done => scanned_of_writable (.bool b) rest done
  | number formed => exact fun rest _ done => scanned_of_writable (.number formed) rest done
  | string s => exact fun rest _ done => scanned_of_writable (.string s) rest done
  | @array items each ih =>
      intro rest level done _
      cases items with
      | nil => exact (tokens?_mark rfl).trans (tokens?_mark rfl)
      | cons v items =>
          obtain ⟨first, others⟩ := List.forall_mem_cons.1 ih
          rw [indent, tokens?_mark rfl, tokens?_newline,
            first _ _ _ (stops_indentItems level items), tokens?_indentItems others, tokens]
          simp
  | @object members each ih =>
      intro rest level done _
      cases members with
      | nil => exact (tokens?_mark rfl).trans (tokens?_mark rfl)
      | cons member members =>
          obtain ⟨key, v⟩ := member
          obtain ⟨first, others⟩ := List.forall_mem_cons.1 ih
          rw [indent, tokens?_mark rfl, tokens?_newline, tokens?_string, tokens?_mark rfl,
            tokens?_blank rfl, first _ _ _ (stops_indentMembers level members),
            tokens?_indentMembers others, tokens]
          simp

end Scan

/-- The indented text of a value has the tokens of the value. -/
theorem ofText?_indented {v : Json} (writable : v.Writable) :
    Token.ofText? (indented v) = some v.tokens := by
  have read := Scan.laid_of_writable writable [] 0 [] (stops_nil _)
  rw [Token.ofText?, indented, String.toList_ofList]
  refine read.trans ?_
  simp [Scan.tokens?, Scan.run, Scan.finish]

/-- The indented text of a value is read as that value. -/
theorem parse?_indented {v : Json} (writable : v.Writable) : parse? (indented v) = some v :=
  parse?_of_tokens writable (ofText?_indented writable)

end Ontograph.Json
