import Ontograph.Proofs.Query.CatalogText
import Ontograph.Proofs.Query.Fragment

/-!
# Lexemes of catalog queries

A query is read as a list of lexemes: words, names between backticks, text literals, parameters, numbers and
signs.  A template is read in the same way, with its tokens as lexemes of one more kind, the slots.

A name of the schema can be any text.  It is put into a query next to colons, dots, brackets and braces, bare
or between backticks, and this must not let it run into its neighbours, or let it end early and go on as
something else.  So a text and its lexemes are related in a way that does not refer to reading (`Spelled`):
the lexemes stand one after the other, apart from each other.  Texts so related are read as the lexemes, and
filling the slots of such a text gives a text with the values in the place of the slots.  That the templates
are such texts is checked once, for templates alone.

Main statement: `Catalog.schema_fills_slots`.
-/

namespace Ontograph

namespace Query

/-! ## Lexemes -/

/-- A lexeme of a query, or of a template for queries. -/
inductive Lexeme where
  /-- A bare name, or a word of the query language. -/
  | word (name : String)
  /-- A name between backticks. -/
  | quoted (name : String)
  /-- A text literal. -/
  | text (s : String)
  /-- A parameter that travels with the statement. -/
  | parameter (name : String)
  /-- A number without a sign. -/
  | number (digits : String)
  /-- A token of a template. -/
  | slot (name : String)
  /-- Any other character that is not blank. -/
  | sign (c : Char)
deriving DecidableEq

namespace Lexeme

/-- The characters of a lexeme. -/
def chars : Lexeme → List Char
  | word name => name.toList
  | quoted name => backticked name
  | text s => (stringLiteral s).toList
  | parameter name => '$' :: name.toList
  | number digits => digits.toList
  | slot name => Template.token name.toList
  | sign c => [c]

/-- The name that a lexeme reads as, bare or not. -/
def name? : Lexeme → Option String
  | word name => some name
  | quoted name => some name
  | _ => none

/-- The lexeme that a name of the schema is written as. -/
def ofName (name : String) : Lexeme :=
  if isPlainIdentifier name then word name else quoted name

theorem name?_ofName (name : String) : (ofName name).name? = some name := by
  unfold ofName
  split <;> rfl

theorem chars_ofName (name : String) : (ofName name).chars = (schemaName name).toList := by
  rw [toList_schemaName, ofName]
  split <;> rfl

/-! ## Reading -/

/-- Reads the lexeme at the start of a text.  There is none at the end of the text or at a blank, and none if
a name between backticks or a text literal is not closed. -/
def read? : List Char → Option (Lexeme × List Char)
  | [] => none
  | '\x60' :: rest => (readQuotedName ('\x60' :: rest)).map (Prod.map quoted id)
  | '\x27' :: rest => (readLiteral ('\x27' :: rest)).map (Prod.map text id)
  | '$' :: rest =>
      match readIdentifier rest with
      | some (name, after) => some (parameter name, after)
      | none => some (sign '$', rest)
  | '%' :: rest =>
      match readIdentifier rest with
      | some (name, '%' :: after) => some (slot name, after)
      | _ => some (sign '%', rest)
  | c :: rest =>
      if isIdentifierStart c then (readIdentifier (c :: rest)).map (Prod.map word id)
      else if c.isDigit then
        some (number (String.ofList (c :: rest.takeWhile Char.isDigit)), rest.dropWhile Char.isDigit)
      else if c.isWhitespace then none
      else some (sign c, rest)

/-- What follows a name that was read is shorter than the text. -/
theorem length_of_readQuoted {text : List Char} {found : List Char × List Char}
    (h : readQuoted text = some found) : found.2.length < text.length := by
  fun_induction readQuoted text generalizing found with
  | case1 => cases h
  | case2 rest ih =>
      obtain ⟨inner, read, rfl⟩ := Option.map_eq_some_iff.1 h
      exact (ih read).trans (Nat.lt_add_of_pos_right Nat.two_pos)
  | case3 rest _ =>
      cases h
      exact Nat.lt_succ_self _
  | case4 c rest _ _ ih =>
      obtain ⟨inner, read, rfl⟩ := Option.map_eq_some_iff.1 h
      exact (ih read).trans (Nat.lt_succ_self _)

theorem length_of_readText {text : List Char} {found : List Char × List Char}
    (h : readText text = some found) : found.2.length < text.length := by
  fun_induction readText text generalizing found with
  | case1 => cases h
  | case2 rest =>
      cases h
      exact Nat.lt_succ_self _
  | case3 c rest ih =>
      obtain ⟨d, -, mapped⟩ := Option.bind_eq_some_iff.1 h
      obtain ⟨inner, read, rfl⟩ := Option.map_eq_some_iff.1 mapped
      exact (ih read).trans (Nat.lt_add_of_pos_right Nat.two_pos)
  | case4 => cases h
  | case5 c rest _ _ _ ih =>
      obtain ⟨inner, read, rfl⟩ := Option.map_eq_some_iff.1 h
      exact (ih read).trans (Nat.lt_succ_self _)

theorem length_of_readQuotedName {text : List Char} {found : String × List Char}
    (h : readQuotedName text = some found) : found.2.length < text.length := by
  rw [readQuotedName.eq_def] at h
  split at h
  · obtain ⟨inner, read, rfl⟩ := Option.map_eq_some_iff.1 h
    exact (length_of_readQuoted read).trans (Nat.lt_succ_self _)
  · cases h

theorem length_of_readLiteral {text : List Char} {found : String × List Char}
    (h : readLiteral text = some found) : found.2.length < text.length := by
  rw [readLiteral.eq_def] at h
  split at h
  · obtain ⟨inner, read, rfl⟩ := Option.map_eq_some_iff.1 h
    exact (length_of_readText read).trans (Nat.lt_succ_self _)
  · cases h

theorem length_of_readIdentifier {text : List Char} {found : String × List Char}
    (h : readIdentifier text = some found) : found.2.length < text.length := by
  cases text with
  | nil => cases h
  | cons c rest =>
      rw [readIdentifier] at h
      split at h
      · cases h
        exact Nat.lt_succ_of_le (List.dropWhile_suffix _).length_le
      · cases h

theorem length_of_read? {text after : List Char} {lexeme : Lexeme}
    (h : read? text = some (lexeme, after)) : after.length < text.length := by
  rw [read?.eq_def] at h
  split at h
  · cases h
  · obtain ⟨found, read, same⟩ := Option.map_eq_some_iff.1 h
    cases same
    exact length_of_readQuotedName read
  · obtain ⟨found, read, same⟩ := Option.map_eq_some_iff.1 h
    cases same
    exact length_of_readLiteral read
  · split at h
    · next read =>
        cases h
        exact (length_of_readIdentifier read).trans (Nat.lt_succ_self _)
    · cases h
      exact Nat.lt_succ_self _
  · split at h
    · next read =>
        cases h
        have shorter := length_of_readIdentifier read
        simp only [List.length_cons] at shorter ⊢
        omega
    · cases h
      exact Nat.lt_succ_self _
  · split at h
    · obtain ⟨found, read, same⟩ := Option.map_eq_some_iff.1 h
      cases same
      exact length_of_readIdentifier read
    · split at h
      · cases h
        exact Nat.lt_succ_of_le (List.dropWhile_suffix _).length_le
      · split at h
        · cases h
        · cases h
          exact Nat.lt_succ_self _

end Lexeme

/-- The lexemes of a text, if all of it can be read.  Blanks between lexemes are passed over. -/
def lexemes? (text : List Char) : Option (List Lexeme) :=
  match text with
  | [] => some []
  | c :: rest =>
      match _read : Lexeme.read? (c :: rest) with
      | some (lexeme, after) => (lexemes? after).map (lexeme :: ·)
      | none => if c.isWhitespace then lexemes? rest else none
termination_by text.length
decreasing_by
  · exact Lexeme.length_of_read? _read
  · exact Nat.lt_succ_self _

theorem lexemes?_of_read? {text after : List Char} {lexeme : Lexeme}
    (h : Lexeme.read? text = some (lexeme, after)) :
    lexemes? text = (lexemes? after).map (lexeme :: ·) := by
  cases text with
  | nil => cases h
  | cons c rest =>
      rw [lexemes?]
      split
      · next found =>
          rw [h] at found
          cases found
          rfl
      · next found =>
          rw [h] at found
          cases found

theorem lexemes?_blank {c : Char} {rest : List Char} (blank : c.isWhitespace = true) :
    lexemes? (c :: rest) = lexemes? rest := by
  have none : Lexeme.read? (c :: rest) = none := by
    have cases : c = ' ' ∨ c = '\t' ∨ c = '\r' ∨ c = '\n' := by
      simpa [Char.isWhitespace, or_assoc] using blank
    rcases cases with rfl | rfl | rfl | rfl <;> rfl
  rw [lexemes?]
  split
  · next found =>
      rw [none] at found
      cases found
  · rw [if_pos blank]

/-! ## Lexemes one after the other -/

/-- Whether a character is a sign: not blank, not at the start of any other lexeme. -/
def isSign (c : Char) : Bool :=
  !c.isWhitespace && !continuesName c && c ≠ '\x27' && c ≠ '$' && c ≠ '%'

/-- Whether a character goes on like a name or opens a slot, whose value may be a name. -/
def continuesLexeme (c : Char) : Bool :=
  c = '%' || continuesName c

/-- Whether a lexeme has one of the forms that its kind allows.  Signs are left out here. -/
def Lexeme.isProper : Lexeme → Bool
  | word name | parameter name | slot name => isPlainIdentifier name
  | quoted _ | text _ => true
  | number digits => !digits.toList.isEmpty && digits.toList.all Char.isDigit
  | sign _ => false

/-- A text that has the given lexemes one after the other.  There may be blanks before and after each; behind
a lexeme that is not a sign there is nothing that would go on like a name. -/
inductive Spelled : List Char → List Lexeme → Prop
  | nil : Spelled [] []
  | blank {c : Char} {rest : List Char} {lexemes : List Lexeme} :
      c.isWhitespace = true → Spelled rest lexemes → Spelled (c :: rest) lexemes
  | sign {c : Char} {rest : List Char} {lexemes : List Lexeme} :
      isSign c = true → Spelled rest lexemes → Spelled (c :: rest) (.sign c :: lexemes)
  | proper {lexeme : Lexeme} {rest : List Char} {lexemes : List Lexeme} :
      lexeme.isProper = true → Stops continuesLexeme rest → Spelled rest lexemes →
      Spelled (lexeme.chars ++ rest) (lexeme :: lexemes)

namespace Lexeme

theorem read?_sign {c : Char} (h : isSign c = true) (rest : List Char) :
    read? (c :: rest) = some (sign c, rest) := by
  simp only [isSign, Query.continuesName, Bool.and_eq_true, Bool.not_eq_true', Bool.or_eq_false_iff,
    decide_eq_true_eq, decide_eq_false_iff_not] at h
  obtain ⟨⟨⟨⟨blank, backtick, rest⟩, quote⟩, dollar⟩, percent⟩ := h
  have start : isIdentifierStart c = false := by grind [isIdentifierStart, isIdentifierRest, Char.isAlphanum]
  have digit : c.isDigit = false := by grind [isIdentifierRest, Char.isAlphanum]
  rw [read?, start, digit, blank] <;> simp_all

theorem read?_of_start {c : Char} (start : isIdentifierStart c = true) (rest : List Char) :
    read? (c :: rest) = (readIdentifier (c :: rest)).map (Prod.map word id) := by
  rw [read?, if_pos start] <;> rintro rfl <;> exact absurd start (by decide)

theorem isIdentifierStart_of_digit {c : Char} (digit : c.isDigit = true) :
    isIdentifierStart c = false := by
  have bounds : (decide ('0' ≤ c) && decide (c ≤ '9')) = true := digit
  have upper : c ≤ '9' := of_decide_eq_true (Bool.and_eq_true_iff.1 bounds).2
  rw [Bool.eq_false_iff, Ne, isIdentifierStart_iff]
  rintro (⟨lower, -⟩ | ⟨lower, -⟩ | rfl)
  · exact absurd (Char.le_trans lower upper) (by decide)
  · exact absurd (Char.le_trans lower upper) (by decide)
  · exact absurd digit (by decide)

theorem read?_of_digit {c : Char} (digit : c.isDigit = true) (rest : List Char) :
    read? (c :: rest) =
      some (number (String.ofList (c :: rest.takeWhile Char.isDigit)), rest.dropWhile Char.isDigit) := by
  have start := isIdentifierStart_of_digit digit
  rw [read?, start, if_pos digit]
  · rfl
  all_goals
    rintro rfl
    exact absurd digit (by decide)

/-- A lexeme is read as it is, in front of what does not go on like a name. -/
theorem read?_chars {lexeme : Lexeme} (proper : lexeme.isProper = true) {rest : List Char}
    (ends : Stops continuesName rest) : read? (lexeme.chars ++ rest) = some (lexeme, rest) := by
  obtain ⟨bare, backtick⟩ := stops_continuesName ends
  cases lexeme with
  | word name =>
      obtain ⟨c, more, chars, start, -⟩ := isPlainIdentifier_iff.1 proper
      have read := readIdentifier_of_plain proper bare
      rw [chars] at read
      rw [Lexeme.chars, chars, List.cons_append, read?_of_start start, ← List.cons_append, read]
      rfl
  | quoted name =>
      have read := readQuotedName_backticked name backtick
      rw [backticked, List.cons_append] at read
      rw [Lexeme.chars, backticked, List.cons_append, read?, read]
      rfl
  | text s =>
      have read := readLiteral_stringLiteral s rest
      rw [toList_stringLiteral, List.cons_append] at read
      rw [Lexeme.chars, toList_stringLiteral, List.cons_append, read?, read]
      rfl
  | parameter name =>
      rw [Lexeme.chars, List.cons_append, read?, readIdentifier_of_plain proper bare]
  | number digits =>
      rw [isProper, Bool.and_eq_true, List.all_eq_true] at proper
      obtain ⟨long, all⟩ := proper
      have stop : Stops Char.isDigit rest := by
        intro c first
        have outside := bare c first
        grind [isIdentifierRest, Char.isAlphanum]
      cases chars : digits.toList with
      | nil => simp [chars] at long
      | cons c more =>
          rw [chars] at all
          obtain ⟨digit, digits⟩ := List.forall_mem_cons.1 all
          rw [Lexeme.chars, chars, List.cons_append, read?_of_digit digit, takeWhile_word digits stop,
            dropWhile_word digits stop, ← chars, String.ofList_toList]
  | slot name =>
      have read : readIdentifier (name.toList ++ '%' :: rest) = some (name, '%' :: rest) :=
        readIdentifier_of_plain proper (stops_cons.2 (by decide))
      rw [Lexeme.chars, Template.token_append, read?, read]
      rfl
  | sign c => cases proper

end Lexeme

theorem stops_continuesLexeme {text : List Char} (h : Stops continuesLexeme text) :
    Stops continuesName text := by
  intro c first
  have outside := h c first
  rw [continuesLexeme, Bool.or_eq_false_iff] at outside
  exact outside.2

/-- A text consists of some lexemes and blanks, and is read as these lexemes. -/
structure HasLexemes (text : List Char) (lexemes : List Lexeme) : Prop where
  spelled : Spelled text lexemes
  read : lexemes? text = some lexemes

/-- A text is read as the lexemes that it has one after the other. -/
theorem Spelled.hasLexemes {text : List Char} {lexemes : List Lexeme} (h : Spelled text lexemes) :
    HasLexemes text lexemes := by
  refine ⟨h, ?_⟩
  induction h with
  | nil => rw [lexemes?]
  | blank blank _ ih => rw [lexemes?_blank blank, ih]
  | sign sign _ ih => rw [lexemes?_of_read? (Lexeme.read?_sign sign _), ih, Option.map_some]
  | proper proper ends _ ih =>
      rw [lexemes?_of_read? (Lexeme.read?_chars proper (stops_continuesLexeme ends)), ih, Option.map_some]

/-! ## Filling slots -/

/-- The lexeme in the place of a slot that has a value; all other lexemes stay as they are. -/
def Lexeme.filled (table : List (String × Lexeme)) : Lexeme → Lexeme
  | slot name => ((table.find? (·.1 = name)).map (·.2)).getD (slot name)
  | lexeme => lexeme

/-- The values of slots as texts. -/
def spellings (table : List (String × Lexeme)) : List (String × String) :=
  table.map fun e => (e.1, String.ofList e.2.chars)

theorem Lexeme.filled_of_mem {table : List (String × Lexeme)} (once : (table.map (·.1)).Nodup)
    {name : String} {lexeme : Lexeme} (h : (name, lexeme) ∈ table) :
    (slot name).filled table = lexeme := by
  have found : table.find? (·.1 = name) = some (name, lexeme) := by
    induction table with
    | nil => cases h
    | cons e rest ih =>
        obtain ⟨new, onceRest⟩ := List.nodup_cons.1 once
        rcases List.mem_cons.1 h with rfl | inside
        · exact List.find?_cons_of_pos (decide_eq_true rfl)
        · have other : e.1 ≠ name := fun same =>
            new (List.mem_map.2 ⟨_, inside, same.symm⟩)
          rw [List.find?_cons_of_neg (by simpa using other), ih onceRest inside]
  rw [filled, found]
  rfl

section

variable {table : List (String × Lexeme)}

theorem find?_spellings (name : String) : (spellings table).find? (·.1 = name) =
    (table.find? (·.1 = name)).map fun e => (e.1, String.ofList e.2.chars) :=
  List.find?_map

theorem named_spellings (names : ∀ e ∈ table, isPlainIdentifier e.1 = true) :
    Template.Named (spellings table) :=
  List.forall_mem_map.2 fun e he => Catalog.percent_of_plain (names e he)

theorem continuesLexeme_of_start {c : Char} (start : isIdentifierStart c = true) :
    continuesLexeme c = true := by
  grind [continuesLexeme, continuesName, isIdentifierStart, isIdentifierRest, Char.isAlphanum]

/-- Filling does not let a text go on like a lexeme before it. -/
theorem stops_replace {values : List (String × String)} {text : List Char}
    (h : Stops continuesLexeme text) : Stops continuesLexeme (Template.replace values text) := by
  cases text with
  | nil => rwa [Template.replace_nil]
  | cons c rest =>
      have outside := stops_cons.1 h
      have other : c ≠ '%' := by
        rintro rfl
        exact absurd outside (by decide)
      rw [Template.replace_cons (Template.leading?_of_ne other)]
      exact stops_cons.2 outside

theorem Lexeme.isProper_filled (values : ∀ e ∈ table, e.2.isProper = true) {lexeme : Lexeme}
    (proper : lexeme.isProper = true) : (lexeme.filled table).isProper = true := by
  cases lexeme with
  | slot name =>
      rw [filled]
      cases found : table.find? (·.1 = name) with
      | some e => exact values e (List.mem_of_find?_eq_some found)
      | none => exact proper
  | _ => exact proper

/-- A slot without a value is copied, if nothing behind it can be taken for a name. -/
theorem replace_slot_unknown (names : ∀ e ∈ table, isPlainIdentifier e.1 = true) {name : String}
    (plain : isPlainIdentifier name = true) {rest : List Char} (ends : Stops continuesLexeme rest)
    (unknown : table.find? (·.1 = name) = none) :
    Template.replace (spellings table) (Template.token name.toList ++ rest) =
      Template.token name.toList ++ Template.replace (spellings table) rest := by
  have named := named_spellings names
  have first : Template.leading? (spellings table) (Template.token name.toList ++ rest) = none := by
    rw [Template.leading?_token named (Catalog.percent_of_plain plain), find?_spellings, unknown]
    rfl
  have second : Template.leading? (spellings table) ('%' :: rest) = none := by
    -- A token would go on with the start of a name.
    refine Template.leading?_eq_none.2 (List.forall_mem_map.2 fun e he starts => ?_)
    obtain ⟨c, more, chars, start, -⟩ := isPlainIdentifier_iff.1 (names e he)
    obtain ⟨after, same⟩ := (List.cons_prefix_cons.1 starts).2
    rw [chars] at same
    have outside := ends c (by rw [← same]; rfl)
    rw [continuesLexeme_of_start start] at outside
    cases outside
  rw [Template.token_append] at first ⊢
  rw [Template.replace_cons first, Template.replace_append (Catalog.percent_of_plain plain),
    Template.replace_cons second, Template.token_append]

/-- The characters of a lexeme become those of the lexeme that fills it. -/
theorem replace_chars (names : ∀ e ∈ table, isPlainIdentifier e.1 = true) {lexeme : Lexeme}
    (proper : lexeme.isProper = true) (free : (∃ name, lexeme = .slot name) ∨ '%' ∉ lexeme.chars)
    {rest : List Char} (ends : Stops continuesLexeme rest) :
    Template.replace (spellings table) (lexeme.chars ++ rest) =
      (lexeme.filled table).chars ++ Template.replace (spellings table) rest := by
  cases lexeme with
  | slot name =>
      rw [Lexeme.chars, Lexeme.filled]
      cases found : table.find? (·.1 = name) with
      | some e =>
          have same : e.1 = name := by simpa using List.find?_some found
          have start :=
            Template.leading?_token (named_spellings names) (Catalog.percent_of_plain proper) rest
          rw [find?_spellings, found] at start
          rw [Template.replace_token start (congrArg String.toList same), String.toList_ofList]
          rfl
      | none => exact replace_slot_unknown names proper ends found
  | _ => exact Template.replace_append (free.resolve_left nofun) rest

/-- Filling the slots of a text that has lexemes one after the other gives a text that has the values in the
place of the slots. -/
theorem Spelled.replace (names : ∀ e ∈ table, isPlainIdentifier e.1 = true)
    (values : ∀ e ∈ table, e.2.isProper = true) {text : List Char} {lexemes : List Lexeme}
    (h : Spelled text lexemes)
    (free : ∀ lexeme ∈ lexemes, (∃ name, lexeme = .slot name) ∨ '%' ∉ lexeme.chars) :
    Spelled (Template.replace (spellings table) text) (lexemes.map (·.filled table)) := by
  induction h with
  | nil => simpa using Spelled.nil
  | @blank c rest lexemes blank _ ih =>
      have other : c ≠ '%' := by
        rintro rfl
        exact absurd blank (by decide)
      rw [Template.replace_cons (Template.leading?_of_ne other)]
      exact .blank blank (ih free)
  | @sign c rest lexemes sign _ ih =>
      have other : c ≠ '%' := by
        rintro rfl
        exact absurd sign (by decide)
      rw [Template.replace_cons (Template.leading?_of_ne other), List.map_cons]
      exact .sign sign (ih (List.forall_mem_cons.1 free).2)
  | proper proper ends _ ih =>
      obtain ⟨first, later⟩ := List.forall_mem_cons.1 free
      rw [replace_chars names proper first ends, List.map_cons]
      exact .proper (Lexeme.isProper_filled values proper) (stops_replace ends) (ih later)

end

/-! ## Checking a template -/

theorem readIdentifier_eq_some {text after : List Char} {name : String}
    (h : readIdentifier text = some (name, after)) :
    isPlainIdentifier name = true ∧ text = name.toList ++ after := by
  cases text with
  | nil => cases h
  | cons c rest =>
      rw [readIdentifier] at h
      split at h
      · next start =>
          cases h
          have word : ∀ d ∈ rest.takeWhile isIdentifierRest, isIdentifierRest d = true :=
            List.all_eq_true.1 List.all_takeWhile
          refine ⟨isPlainIdentifier_iff.2 ⟨_, _, String.toList_ofList, start, word⟩, ?_⟩
          rw [String.toList_ofList, List.cons_append, List.takeWhile_append_dropWhile]
      · cases h

namespace Lexeme

/-- Whether a lexeme may stand in a template besides signs: no quotes, and only slots with given names. -/
def isRaw (slots : List String) : Lexeme → Bool
  | word _ | parameter _ | number _ => true
  | slot name => slots.contains name
  | _ => false

/-- What is read without quotes is what stands in the text. -/
theorem read?_sound {slots : List String} {text after : List Char} {lexeme : Lexeme}
    (h : read? text = some (lexeme, after)) (raw : lexeme.isRaw slots = true) :
    lexeme.isProper = true ∧ text = lexeme.chars ++ after := by
  rw [read?.eq_def] at h
  split at h
  · cases h
  · obtain ⟨found, -, same⟩ := Option.map_eq_some_iff.1 h
    cases same
    cases raw
  · obtain ⟨found, -, same⟩ := Option.map_eq_some_iff.1 h
    cases same
    cases raw
  · split at h
    · next read =>
        cases h
        obtain ⟨plain, rfl⟩ := readIdentifier_eq_some read
        exact ⟨plain, rfl⟩
    · cases h
      cases raw
  · split at h
    · next read =>
        cases h
        obtain ⟨plain, rfl⟩ := readIdentifier_eq_some read
        exact ⟨plain, (Template.token_append _ _).symm⟩
    · cases h
      cases raw
  · next c rest _ _ _ _ =>
      split at h
      · obtain ⟨found, read, same⟩ := Option.map_eq_some_iff.1 h
        cases same
        exact readIdentifier_eq_some read
      · split at h
        · next digit =>
            cases h
            have digits : (c :: rest.takeWhile Char.isDigit).all Char.isDigit = true := by
              rw [List.all_cons, digit, List.all_takeWhile, Bool.and_self]
            refine ⟨by rw [isProper, String.toList_ofList, digits]; rfl, ?_⟩
            rw [Lexeme.chars, String.toList_ofList, List.cons_append, List.takeWhile_append_dropWhile]
        · split at h
          · cases h
          · cases h
            cases raw

/-- In a template percent signs occur in slots only. -/
theorem slot_or_percent {slots : List String} {lexeme : Lexeme} (raw : lexeme.isRaw slots = true)
    (proper : lexeme.isProper = true) : (∃ name ∈ slots, lexeme = slot name) ∨ '%' ∉ lexeme.chars := by
  cases lexeme with
  | word name => exact .inr (Catalog.percent_of_plain proper)
  | parameter name =>
      exact .inr (List.not_mem_cons_of_ne_of_not_mem (by decide) (Catalog.percent_of_plain proper))
  | number digits =>
      refine .inr fun percent => ?_
      have digit := List.all_eq_true.1 (Bool.and_eq_true_iff.1 proper).2 _ percent
      exact absurd digit (by decide)
  | slot name => exact .inl ⟨name, List.contains_iff_mem.1 raw, rfl⟩
  | _ => cases raw

end Lexeme

/-- Whether a text can be a template with slots of given names: whether its lexemes stand one after the other,
read in at most `fuel` steps. -/
def isTemplate (slots : List String) : Nat → List Char → Bool
  | _, [] => true
  | 0, _ :: _ => false
  | fuel + 1, c :: rest =>
      if c.isWhitespace then isTemplate slots fuel rest
      else if isSign c then isTemplate slots fuel rest
      else
        match Lexeme.read? (c :: rest) with
        | some (lexeme, after) =>
            lexeme.isRaw slots && (after.head?.all fun d => !continuesLexeme d) &&
              isTemplate slots fuel after
        | none => false

theorem isTemplate_sound {slots : List String} {fuel : Nat} {text : List Char}
    (h : isTemplate slots fuel text = true) : ∃ lexemes, Spelled text lexemes ∧
      ∀ lexeme ∈ lexemes, (∃ name ∈ slots, lexeme = .slot name) ∨ '%' ∉ lexeme.chars := by
  induction fuel generalizing text with
  | zero =>
      cases text with
      | nil => exact ⟨[], .nil, nofun⟩
      | cons c rest => cases h
  | succ fuel ih =>
      cases text with
      | nil => exact ⟨[], .nil, nofun⟩
      | cons c rest =>
          rw [isTemplate] at h
          split at h
          · next blank =>
              obtain ⟨lexemes, spelled, all⟩ := ih h
              exact ⟨lexemes, .blank blank spelled, all⟩
          · split at h
            · next sign =>
                obtain ⟨lexemes, spelled, all⟩ := ih h
                have other : '%' ∉ [c] := by
                  rintro (_ | ⟨_, ⟨⟩⟩)
                  exact absurd sign (by decide)
                exact ⟨_, .sign sign spelled, List.forall_mem_cons.2 ⟨.inr other, all⟩⟩
            · split at h
              · next lexeme after read =>
                  simp only [Bool.and_eq_true] at h
                  obtain ⟨⟨raw, ends⟩, more⟩ := h
                  obtain ⟨lexemes, spelled, all⟩ := ih more
                  obtain ⟨proper, same⟩ := Lexeme.read?_sound read raw
                  have stop : Stops continuesLexeme after := by
                    intro d hd
                    simpa [Option.mem_def.1 hd] using ends
                  rw [same]
                  exact ⟨_, .proper proper stop spelled,
                    List.forall_mem_cons.2 ⟨Lexeme.slot_or_percent raw proper, all⟩⟩
              · cases h

end Query

namespace Catalog

open Query Template

/-- The slots for names of the schema, with the names. -/
def nameSlots (schema : Schema) : List (String × String) :=
  [("RESOURCE", schema.resourceLabel), ("CLASS", schema.classLabel),
    ("OBJECT_PROPERTY", schema.objectPropertyLabel), ("DATA_PROPERTY", schema.dataPropertyLabel),
    ("SCO", schema.subclassOfType), ("SPO", schema.subpropertyOfType), ("DOMAIN", schema.domainType),
    ("RANGE", schema.rangeType), ("URI", schema.identityKey)]

/-- The slots for datatypes, with their identifiers. -/
def datatypeSlots : List (String × Uri) :=
  [("XSD_BOOLEAN", Vocabulary.xsdBoolean), ("XSD_STRING", Vocabulary.xsdString),
    ("XSD_INT", Vocabulary.xsdInt), ("XSD_INTEGER", Vocabulary.xsdInteger),
    ("XSD_DOUBLE", Vocabulary.xsdDouble), ("XSD_FLOAT", Vocabulary.xsdFloat)]

/-- What fills the slots of templates. -/
def slots (schema : Schema) : List (String × Lexeme) :=
  (nameSlots schema).map (fun e => (e.1, .ofName e.2)) ++ datatypeSlots.map fun e => (e.1, .text e.2)

theorem tokens_eq (schema : Schema) : tokens schema = spellings (slots schema) := by
  have names : ∀ name, String.ofList (Lexeme.ofName name).chars = schemaName name := fun name => by
    rw [Lexeme.chars_ofName, String.ofList_toList]
  have texts : ∀ s, String.ofList (Lexeme.text s).chars = stringLiteral s := fun _ =>
    String.ofList_toList
  simp only [tokens, spellings, slots, nameSlots, datatypeSlots, List.map_cons, List.map_nil, names, texts,
    List.cons_append, List.nil_append]

/-- The names of slots do not depend on the schema. -/
theorem names_slots (schema : Schema) : (slots schema).map (·.1) = (slots {}).map (·.1) :=
  rfl

theorem slots_plain (schema : Schema) : ∀ e ∈ slots schema, isPlainIdentifier e.1 = true := by
  have names : ∀ name ∈ (slots {}).map (·.1), isPlainIdentifier name = true := by decide +kernel
  intro e he
  exact names e.1 (names_slots schema ▸ List.mem_map_of_mem he)

theorem slots_proper (schema : Schema) : ∀ e ∈ slots schema, e.2.isProper = true := by
  refine List.forall_mem_append.2
    ⟨List.forall_mem_map.2 fun e _ => ?_, List.forall_mem_map.2 fun _ _ => rfl⟩
  show (Lexeme.ofName e.2).isProper = true
  unfold Lexeme.ofName
  split
  · assumption
  · rfl

/-- What stands in the place of each slot. -/
theorem filled_slots (schema : Schema) :
    (∀ e ∈ nameSlots schema, (Lexeme.slot e.1).filled (slots schema) = .ofName e.2) ∧
    (∀ e ∈ datatypeSlots, (Lexeme.slot e.1).filled (slots schema) = .text e.2) ∧
    (Lexeme.slot "KEY").filled (slots schema) = .slot "KEY" := by
  have once : ((slots schema).map (·.1)).Nodup := by
    rw [names_slots]
    decide +kernel
  refine ⟨fun e he => ?_, fun e he => ?_, rfl⟩
  · exact Lexeme.filled_of_mem once (List.mem_append_left _ (List.mem_map_of_mem he))
  · exact Lexeme.filled_of_mem once (List.mem_append_right _ (List.mem_map_of_mem he))

/-! ## The texts of the catalog -/

theorem templates_spelled (query : CatalogQuery) :
    isTemplate ("KEY" :: (slots {}).map (·.1)) 200 (templateChars query).1 = true := by
  cases query <;> decide +kernel

/-- The lexemes of the text of a query are those of its template, with one lexeme in the place of each slot:
one that reads as the name of the schema, whatever text this is, or the text literal of a datatype.  The slot
of a property is left. -/
theorem schema_fills_slots (query : CatalogQuery) :
    ∃ raw, HasLexemes query.template.toList raw ∧
      (∀ name, .slot name ∈ raw → name = "KEY" ∨ name ∈ (slots {}).map (·.1)) ∧
      ∀ schema,
        (∃ text, (ofSchema schema).get query = .ok text ∧
          HasLexemes text.toList (raw.map (·.filled (slots schema)))) ∧
        (∀ e ∈ nameSlots schema, ((Lexeme.slot e.1).filled (slots schema)).name? = some e.2) ∧
        (∀ e ∈ datatypeSlots, (Lexeme.slot e.1).filled (slots schema) = .text e.2) ∧
        (Lexeme.slot "KEY").filled (slots schema) = .slot "KEY" := by
  obtain ⟨raw, spelled, allowed⟩ := isTemplate_sound (templates_spelled query)
  rw [← toList_template] at spelled
  have known : ∀ name, .slot name ∈ raw → name = "KEY" ∨ name ∈ (slots {}).map (·.1) := by
    intro name inside
    rcases allowed _ inside with ⟨_, listed, ⟨⟩⟩ | free
    · exact List.mem_cons.1 listed
    · exact absurd List.mem_cons_self free
  refine ⟨raw, spelled.hasLexemes, known, fun schema => ?_⟩
  obtain ⟨names, datatypes, key⟩ := filled_slots schema
  have named : Named (tokens schema) := fun e he => (tokens_named schema e he).1
  have filled := spelled.replace (slots_plain schema) (slots_proper schema) fun lexeme inside =>
    (allowed lexeme inside).imp_left fun ⟨name, _, same⟩ => ⟨name, same⟩
  rw [← tokens_eq] at filled
  refine ⟨⟨_, get_ofSchema schema query, ?_⟩, fun e he => ?_, datatypes, key⟩
  · rw [fill_eq named, String.toList_ofList]
    exact filled.hasLexemes
  · rw [names e he, Lexeme.name?_ofName]

/-- A name that has the quote of names and the token of the property in it. -/
theorem schema_fills_slots_backtick :
    ("RESOURCE", "a\x60%KEY%") ∈ nameSlots { resourceLabel := "a\x60%KEY%" } ∧
    ((Lexeme.slot "RESOURCE").filled (slots { resourceLabel := "a\x60%KEY%" })).name? =
      some "a\x60%KEY%" ∧
    ∃ text, (ofSchema { resourceLabel := "a\x60%KEY%" }).get .individualNode = .ok text ∧
      lexemes? text.toList =
        some [.word "MATCH", .sign '(', .word "ind", .sign ':', .quoted "a\x60%KEY%", .sign '\x7b',
          .word "uri", .sign ':', .parameter "uri", .sign '\x7d', .sign ')', .word "RETURN",
          .word "ind", .word "AS", .word "individual"] := by
  obtain ⟨raw, read, -, filled⟩ := schema_fills_slots .individualNode
  obtain ⟨⟨text, held, lexemes⟩, names, -⟩ := filled { resourceLabel := "a\x60%KEY%" }
  have listed : ("RESOURCE", "a\x60%KEY%") ∈ nameSlots { resourceLabel := "a\x60%KEY%" } :=
    List.mem_cons_self
  have template : lexemes? CatalogQuery.individualNode.template.toList =
      some [.word "MATCH", .sign '(', .word "ind", .sign ':', .slot "RESOURCE", .sign '\x7b',
        .slot "URI", .sign ':', .parameter "uri", .sign '\x7d', .sign ')', .word "RETURN",
        .word "ind", .word "AS", .word "individual"] := by
    decide +kernel
  have same := template.symm.trans read.read
  cases same
  exact ⟨listed, names _ listed, text, held, lexemes.read.trans (by decide +kernel)⟩

end Catalog

end Ontograph
