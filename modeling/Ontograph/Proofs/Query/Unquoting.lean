import Ontograph.Proofs.Query.Fault
import Ontograph.Proofs.Text.Words

/-!
# Reading what is quoted

How a reader of a query finds names and text literals in it.  A text literal ends at the first quote that is
not escaped.  A name between backticks ends at the first backtick that does not stand before another one,
and a bare name at the first character that no name can have.

Each of the three ways of writing a text into a query is undone by reading, whatever follows in the query,
as long as it does not go on like a name after a name.  So different texts are written differently.

Main statement: `quoting_undone`.
-/

namespace Ontograph.Query

/-! ## Readers -/

/-- One more character in front of a text that was read. -/
def withChar (c : Char) (found : List Char × List Char) : List Char × List Char :=
  (c :: found.1, found.2)

/-- The character that an escape stands for, by the character after the backslash. -/
def escape? : Char → Option Char
  | '\\' => some '\\'
  | '\x27' => some '\x27'
  | 'n' => some '\n'
  | 'r' => some '\r'
  | 't' => some '\t'
  | _ => none

/-- Reads on behind the opening quote of a text literal: the text, and what follows the closing quote. -/
def readText : List Char → Option (List Char × List Char)
  | [] => none
  | '\x27' :: rest => some ([], rest)
  | '\\' :: c :: rest => (escape? c).bind fun d => (readText rest).map (withChar d)
  | ['\\'] => none
  | c :: rest => (readText rest).map (withChar c)

/-- Reads on behind the opening backtick of a name: the name, and what follows the closing backtick. -/
def readQuoted : List Char → Option (List Char × List Char)
  | [] => none
  | '\x60' :: '\x60' :: rest => (readQuoted rest).map (withChar '\x60')
  | '\x60' :: rest => some ([], rest)
  | c :: rest => (readQuoted rest).map (withChar c)

/-- Reads a text literal. -/
def readLiteral : List Char → Option (String × List Char)
  | '\x27' :: rest => (readText rest).map fun found => (String.ofList found.1, found.2)
  | _ => none

/-- Reads a name between backticks. -/
def readQuotedName : List Char → Option (String × List Char)
  | '\x60' :: rest => (readQuoted rest).map fun found => (String.ofList found.1, found.2)
  | _ => none

/-- Reads a plain identifier, as far as it goes. -/
def readIdentifier : List Char → Option (String × List Char)
  | [] => none
  | c :: rest =>
      if isIdentifierStart c then
        some (String.ofList (c :: rest.takeWhile isIdentifierRest), rest.dropWhile isIdentifierRest)
      else none

/-- Reads a name, between backticks or bare. -/
def readName (text : List Char) : Option (String × List Char) :=
  readQuotedName text <|> readIdentifier text

/-- Whether a character after a name would be taken for a part of it: a backtick, an ASCII letter, a digit or
an underscore. -/
def continuesName (c : Char) : Bool :=
  c = '\x60' || isIdentifierRest c

/-! ## Text literals -/

/-- A character of a text literal is escaped, or it is plain: neither a backslash nor a quote. -/
theorem literalChar_cases (c : Char) :
    (∃ d, literalChar c = ['\\', d] ∧ escape? d = some c) ∨
      (literalChar c = [c] ∧ c ≠ '\\' ∧ c ≠ '\x27') := by
  unfold literalChar
  split
  · exact .inl ⟨_, rfl, rfl⟩
  · exact .inl ⟨_, rfl, rfl⟩
  · exact .inl ⟨_, rfl, rfl⟩
  · exact .inl ⟨_, rfl, rfl⟩
  · exact .inl ⟨_, rfl, rfl⟩
  · next c backslash quote _ _ _ => exact .inr ⟨rfl, backslash, quote⟩

theorem readText_of_plain {c : Char} (backslash : c ≠ '\\') (quote : c ≠ '\x27') (rest : List Char) :
    readText (c :: rest) = (readText rest).map (withChar c) := by
  rw [readText] <;> simp_all

theorem readText_flatMap (s rest : List Char) :
    readText (s.flatMap literalChar ++ '\x27' :: rest) = some (s, rest) := by
  induction s with
  | nil => rfl
  | cons c s ih =>
      rw [List.flatMap_cons, List.append_assoc]
      rcases literalChar_cases c with ⟨d, spelled, stands⟩ | ⟨spelled, backslash, quote⟩
      · rw [spelled, List.cons_append, List.cons_append, List.nil_append, readText, stands,
          Option.bind_some, ih]
        rfl
      · rw [spelled, List.cons_append, List.nil_append, readText_of_plain backslash quote, ih]
        rfl

theorem toList_stringLiteral (s : String) :
    (stringLiteral s).toList = '\x27' :: (s.toList.flatMap literalChar ++ ['\x27']) :=
  String.toList_ofList

/-- A text literal is read as the text, whatever follows. -/
theorem readLiteral_stringLiteral (s : String) (rest : List Char) :
    readLiteral ((stringLiteral s).toList ++ rest) = some (s, rest) := by
  rw [toList_stringLiteral, List.cons_append, List.append_assoc, List.singleton_append, readLiteral,
    readText_flatMap, Option.map_some, String.ofList_toList]

/-! ## Names -/

theorem readQuoted_of_ne {c : Char} (h : c ≠ '\x60') (rest : List Char) :
    readQuoted (c :: rest) = (readQuoted rest).map (withChar c) := by
  rw [readQuoted] <;> simp_all

theorem readQuoted_flatMap (s : List Char) {rest : List Char} (ends : rest.head? ≠ some '\x60') :
    readQuoted (s.flatMap backtickChar ++ '\x60' :: rest) = some (s, rest) := by
  induction s with
  | nil =>
      rw [List.flatMap_nil, List.nil_append, readQuoted]
      rintro after rfl
      exact ends rfl
  | cons c s ih =>
      rw [List.flatMap_cons, List.append_assoc, backtickChar]
      split
      · next backtick =>
          rw [List.cons_append, List.cons_append, List.nil_append, readQuoted, ih, backtick]
          rfl
      · next other =>
          rw [List.cons_append, List.nil_append, readQuoted_of_ne other, ih]
          rfl

/-- The characters of a name between backticks. -/
def backticked (name : String) : List Char :=
  '\x60' :: (name.toList.flatMap backtickChar ++ ['\x60'])

theorem readQuotedName_backticked (name : String) {rest : List Char} (ends : rest.head? ≠ some '\x60') :
    readQuotedName (backticked name ++ rest) = some (name, rest) := by
  rw [backticked, List.cons_append, List.append_assoc, List.singleton_append, readQuotedName,
    readQuoted_flatMap _ ends, Option.map_some, String.ofList_toList]

theorem isPlainIdentifier_iff {s : String} : isPlainIdentifier s = true ↔
    ∃ c rest, s.toList = c :: rest ∧ isIdentifierStart c = true ∧ ∀ d ∈ rest, isIdentifierRest d = true := by
  unfold isPlainIdentifier
  cases s.toList with
  | nil => simp
  | cons c rest => simp

theorem readIdentifier_of_plain {s : String} (plain : isPlainIdentifier s = true) {rest : List Char}
    (ends : Stops isIdentifierRest rest) : readIdentifier (s.toList ++ rest) = some (s, rest) := by
  obtain ⟨c, more, chars, start, all⟩ := isPlainIdentifier_iff.1 plain
  rw [chars, List.cons_append, readIdentifier, if_pos start, takeWhile_word all ends,
    dropWhile_word all ends, ← chars, String.ofList_toList]

theorem readQuotedName_of_start {c : Char} (start : isIdentifierStart c = true) (rest : List Char) :
    readQuotedName (c :: rest) = none := by
  rw [readQuotedName]
  rintro _ ⟨⟩
  exact absurd start (by decide)

theorem toList_schemaName (name : String) : (schemaName name).toList =
    if isPlainIdentifier name = true then name.toList else backticked name := by
  unfold schemaName
  split
  · rfl
  · exact String.toList_ofList

/-- What does not go on like a name does not go on like a plain identifier, nor with a backtick. -/
theorem stops_continuesName {text : List Char} (h : Stops continuesName text) :
    Stops isIdentifierRest text ∧ text.head? ≠ some '\x60' := by
  cases text with
  | nil => exact ⟨stops_nil _, nofun⟩
  | cons c rest =>
      have outside := stops_cons.1 h
      rw [continuesName, Bool.or_eq_false_iff, decide_eq_false_iff_not] at outside
      exact ⟨stops_cons.2 outside.2, fun same => outside.1 (Option.some.inj same)⟩

/-- A name of the schema is read as the name, bare or not. -/
theorem readName_schemaName (name : String) {rest : List Char} (ends : Stops continuesName rest) :
    readName ((schemaName name).toList ++ rest) = some (name, rest) := by
  obtain ⟨word, backtick⟩ := stops_continuesName ends
  rw [toList_schemaName, readName]
  split
  · next plain =>
      obtain ⟨c, more, chars, start, -⟩ := isPlainIdentifier_iff.1 plain
      have bare : readQuotedName (name.toList ++ rest) = none := by
        rw [chars]
        exact readQuotedName_of_start start _
      rw [bare, readIdentifier_of_plain plain word]
      rfl
  · rw [readQuotedName_backticked name backtick]
    rfl

/-! ## Identifiers of entities -/

/-- Without a backtick in it, a name between backticks has the characters of the name. -/
theorem backticked_of_quotable {uri : Uri} (h : Quotable uri) :
    backticked uri = '\x60' :: (uri.toList ++ ['\x60']) := by
  have plain : ∀ c ∈ uri.toList, backtickChar c = [c] := by
    intro c hc
    refine if_neg ?_
    rintro rfl
    exact h.2 hc
  rw [backticked, List.flatMap_congr plain, List.flatMap_singleton']

theorem toList_of_uriName {uri : Uri} {name : String} (h : uriName uri = .ok name) :
    name.toList = backticked uri := by
  have quotable := exists_uriName_iff.1 ⟨name, h⟩
  unfold uriName at h
  split at h
  · cases h
  · cases h
    rw [backticked_of_quotable quotable, String.toList_ofList]

/-- The identifier of an entity is read as it is. -/
theorem readName_uriName {uri : Uri} {name : String} (h : uriName uri = .ok name) {rest : List Char}
    (ends : rest.head? ≠ some '\x60') : readName (name.toList ++ rest) = some (uri, rest) := by
  rw [toList_of_uriName h, readName, readQuotedName_backticked uri ends]
  rfl

/-! ## All of them -/

theorem stringLiteral_injective : Function.Injective stringLiteral := by
  intro s t same
  have read := readLiteral_stringLiteral s []
  rw [same, readLiteral_stringLiteral] at read
  cases read
  rfl

theorem schemaName_injective : Function.Injective schemaName := by
  intro s t same
  have read := readName_schemaName s (stops_nil _)
  rw [same, readName_schemaName t (stops_nil _)] at read
  cases read
  rfl

/-- Identifiers with one outcome are one identifier; a refusal names what it refuses. -/
theorem uriName_injective : Function.Injective uriName := by
  intro s t same
  cases outcome : uriName s with
  | ok name =>
      have noBacktick : ([] : List Char).head? ≠ some '\x60' := by simp
      have read := readName_uriName outcome noBacktick
      rw [readName_uriName (same.symm.trans outcome) noBacktick] at read
      cases read
      rfl
  | error failure =>
      have first := (uriName_meets s).error_iff.1 outcome
      have second := (uriName_meets t).error_iff.1 (same.symm.trans outcome)
      rw [nameFault?] at first second
      split at first
      · cases first
      · split at second
        · cases second
        · cases first
          cases second
          rfl

/-- Reading undoes quoting, in front of whatever follows: a text literal in front of any text, a name in front
of a text that does not go on like a name, and the identifier of an entity, if there is a name for it, in
front of a text that does not begin with a backtick. -/
theorem quoting_undone :
    (∀ (s : String) rest, readLiteral ((stringLiteral s).toList ++ rest) = some (s, rest)) ∧
    (∀ (name : String) rest, Stops continuesName rest →
      readName ((schemaName name).toList ++ rest) = some (name, rest)) ∧
    (∀ uri : Uri, (∃ name, uriName uri = .ok name) ↔ uri ≠ "" ∧ '\x60' ∉ uri.toList) ∧
    (∀ (uri : Uri) name rest, uriName uri = .ok name → rest.head? ≠ some '\x60' →
      readName (name.toList ++ rest) = some (uri, rest)) ∧
    Function.Injective stringLiteral ∧ Function.Injective schemaName ∧ Function.Injective uriName :=
  ⟨readLiteral_stringLiteral, fun name _ ends => readName_schemaName name ends,
    fun _ => exists_uriName_iff, fun _ _ _ named ends => readName_uriName named ends,
    stringLiteral_injective, schemaName_injective, uriName_injective⟩

theorem quoting_undone_brackets :
    Stops continuesName [')', '\x60'] ∧ uriName "it's" = .ok "\x60it's\x60" ∧
    readLiteral ((stringLiteral "\\'").toList ++ ['\x27']) = some ("\\'", ['\x27']) ∧
    readName ((schemaName "a\x60").toList ++ [')', '\x60']) = some ("a\x60", [')', '\x60']) ∧
    readName ("\x60it's\x60".toList ++ ['x']) = some ("it's", ['x']) := by
  obtain ⟨literals, names, -, identifiers, -⟩ := quoting_undone
  have accepted : uriName "it's" = .ok "\x60it's\x60" := if_neg (by decide)
  have ends : Stops continuesName [')', '\x60'] := stops_cons.2 (by decide)
  exact ⟨ends, accepted, literals _ _, names _ _ ends, identifiers _ _ _ accepted (by decide)⟩

end Ontograph.Query
