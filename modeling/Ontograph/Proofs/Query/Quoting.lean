import Ontograph.Proofs.Number.Shortest
import Ontograph.Proofs.Query.Spelling
import Ontograph.Proofs.Query.Unquoting

/-!
# Names and literals read back

Names of variables end at the first character that is none of theirs, quoted identifiers at the closing
backtick, which they do not contain, text literals at the first quote that is not escaped, and other
literals at the blank or the end of the line that follows them.

Main statements: `identifier_readable`, `quoted_readable`, `textLiteral_readable` and
`literal_readable`.
-/

namespace Ontograph.Query

/-! ## Names -/

theorem identifier_readable : Readable Identifier (Stops isIdentifierRest) String.toList := by
  intro a b s t ha hb hs ht h
  obtain ⟨same, rest⟩ := eq_of_word ha hb hs ht h
  exact ⟨String.toList_inj.1 same, rest⟩

/-- The characters of a quoted identifier. -/
def quotedChars (uri : Uri) : List Char :=
  '\x60' :: (uri.toList ++ ['\x60'])

theorem uriName_eq {uri : Uri} (h : Quotable uri) :
    uriName uri = .ok (String.ofList (quotedChars uri)) := by
  refine if_neg ?_
  rw [String.toList_eq_nil_iff, not_or]
  exact h

theorem exists_uriName {uri : Uri} (h : Quotable uri) :
    ∃ name, uriName uri = .ok name ∧ name.toList = quotedChars uri :=
  ⟨_, uriName_eq h, String.toList_ofList⟩

theorem quoted_readable : Readable Quotable (fun _ => True) quotedChars := by
  intro a b s t ha hb _ _ h
  have inside : ∀ {uri : Uri}, Quotable uri → ∀ c ∈ uri.toList, (c != '\x60') = true := by
    intro uri quotable c hc
    rw [bne_iff_ne]
    rintro rfl
    exact quotable.2 hc
  have ends : ∀ rest : List Char, Stops (· != '\x60') ('\x60' :: rest) := fun rest =>
    stops_cons.2 (by decide)
  simp only [quotedChars, List.cons_append, List.append_assoc, List.nil_append] at h
  obtain ⟨same, rest⟩ := eq_of_word (inside ha) (inside hb) (ends s) (ends t) (List.cons.inj h).2
  exact ⟨String.toList_inj.1 same, (List.cons.inj rest).2⟩

/-! ## Text literals -/

theorem textLiteral_readable :
    Readable (fun _ => True) (fun _ => True) (fun s => (stringLiteral s).toList) :=
  .of_read fun s rest _ _ => readLiteral_stringLiteral s rest

/-! ## Literals -/

/-- The characters of a literal that has a text. -/
def literalChars : Literal → List Char
  | .integer n => (Numeral.ofInt n.toInt).chars false
  | .float x => x.numeral.chars false
  | .string s => (stringLiteral s).toList
  | .boolean b => (Literal.boolText b).toList

theorem literal_eq {value : Literal} (h : Writable value) :
    literal value = .ok (String.ofList (literalChars value)) := by
  cases value with
  | integer n => rfl
  | float x =>
      have finite : x.isFinite = true := h
      rw [literal, if_pos finite, Binary64.display_eq finite]
      rfl
  | string s =>
      rw [literalChars, String.ofList_toList]
      rfl
  | boolean b =>
      rw [literalChars, String.ofList_toList]
      rfl

theorem exists_literal {value : Literal} (h : Writable value) :
    ∃ text, literal value = .ok text ∧ text.toList = literalChars value :=
  ⟨_, literal_eq h, String.toList_ofList⟩

/-- What stands after a literal: a blank or the end of the line. -/
def Ends (text : List Char) : Prop :=
  text.head? = some ' ' ∨ text.head? = some '\n'

/-- A character of a literal that is no text. -/
def isWordChar (c : Char) : Bool :=
  c != ' ' && c != '\n' && c != '\x27'

theorem Ends.stops {p : Char → Bool} {text : List Char} (h : Ends text) (blank : p ' ' = false)
    (newline : p '\n' = false) : Stops p text := by
  intro c hc
  rcases h with first | first
  · rw [first] at hc
    obtain rfl := Option.some.inj hc
    exact blank
  · rw [first] at hc
    obtain rfl := Option.some.inj hc
    exact newline

theorem Ends.head?_ne {text : List Char} (h : Ends text) {c : Char} (blank : ' ' ≠ c)
    (newline : '\n' ≠ c) : text.head? ≠ some c := by
  intro same
  rcases h with first | first
  · exact blank (Option.some.inj (first.symm.trans same))
  · exact newline (Option.some.inj (first.symm.trans same))

theorem isWordChar_of_literal {value : Literal} (h : value.isString = false) :
    ∀ c ∈ literalChars value, isWordChar c = true := by
  have numeral := Numeral.forall_mem_chars (p := (isWordChar · = true)) (by decide) rfl rfl rfl
  cases value with
  | integer n => exact numeral _
  | float x => exact numeral _
  | string s => cases h
  | boolean b =>
      cases b with
      | false => exact List.all_eq_true.1 (show ['f', 'a', 'l', 's', 'e'].all isWordChar = true from rfl)
      | true => exact List.all_eq_true.1 (show ['t', 'r', 'u', 'e'].all isWordChar = true from rfl)

/-- Words for truth values are not numerals. -/
theorem boolText_ne_numeral (b : Bool) (n : Numeral) :
    (Literal.boolText b).toList ≠ n.chars false := by
  have letter : ∀ c ∈ n.chars false, c ≠ 't' ∧ c ≠ 'f' :=
    Numeral.forall_mem_chars (by decide) (by decide) (by decide) (by decide) n
  intro same
  cases b with
  | false => exact (letter 'f' (same ▸ by decide)).2 rfl
  | true => exact (letter 't' (same ▸ by decide)).1 rfl

/-- An integer is written without fraction and exponent, a double is not. -/
theorem ofInt_ne_numeral (n : Int) (x : Binary64) : Numeral.ofInt n ≠ x.numeral := by
  intro same
  rcases x.numeral_broken with fraction | exponent
  · exact fraction (congrArg Numeral.fraction same).symm
  · exact exponent (congrArg Numeral.exponent same).symm

/-- A literal that is no text is determined by its characters. -/
theorem literalChars_inj {a b : Literal} (ha : Writable a) (hb : Writable b)
    (notText : a.isString = false) (notText' : b.isString = false)
    (h : literalChars a = literalChars b) : a = b := by
  cases a with
  | integer m =>
      cases b with
      | integer n =>
          have same := Numeral.ofInt_inj (Numeral.chars_inj h)
          exact congrArg Literal.integer (Int64.toInt_inj.1 same)
      | float y => exact absurd (Numeral.chars_inj h) (ofInt_ne_numeral _ y)
      | string s => cases notText'
      | boolean b => exact absurd h.symm (boolText_ne_numeral b _)
  | float x =>
      cases b with
      | integer n => exact absurd (Numeral.chars_inj h).symm (ofInt_ne_numeral _ x)
      | float y => exact congrArg Literal.float (Binary64.numeral_inj ha hb (Numeral.chars_inj h))
      | string s => cases notText'
      | boolean b => exact absurd h.symm (boolText_ne_numeral b _)
  | string s => cases notText
  | boolean c =>
      cases b with
      | integer n => exact absurd h (boolText_ne_numeral c _)
      | float y => exact absurd h (boolText_ne_numeral c _)
      | string s => cases notText'
      | boolean c' =>
          have same := String.toList_inj.1 h
          revert same
          cases c <;> cases c' <;> decide

theorem exists_text {value : Literal} (h : value.isString = true) : ∃ s, value = .string s := by
  cases value with
  | string s => exact ⟨s, rfl⟩
  | _ => cases h

/-- What does not begin with a quote is not a text literal. -/
theorem head?_word {value : Literal} {t : List Char} (h : value.isString = false) (ht : Ends t) :
    (literalChars value ++ t).head? ≠ some '\x27' := by
  intro quote
  cases chars : literalChars value with
  | nil =>
      rw [chars, List.nil_append] at quote
      exact ht.head?_ne (by decide) (by decide) quote
  | cons c rest =>
      rw [chars] at quote
      obtain rfl := Option.some.inj quote
      have word := isWordChar_of_literal h '\x27' (chars ▸ List.mem_cons_self)
      exact absurd word (by decide)

theorem head?_textLiteral (s : String) (t : List Char) :
    ((stringLiteral s).toList ++ t).head? = some '\x27' := by
  rw [toList_stringLiteral]
  rfl

theorem literal_readable : Readable Writable Ends literalChars := by
  intro a b s t ha hb hs ht h
  cases textA : a.isString with
  | false =>
      cases textB : b.isString with
      | false =>
          obtain ⟨same, rest⟩ := eq_of_word (isWordChar_of_literal textA)
            (isWordChar_of_literal textB) (hs.stops rfl rfl) (ht.stops rfl rfl) h
          exact ⟨literalChars_inj ha hb textA textB same, rest⟩
      | true =>
          obtain ⟨y, rfl⟩ := exists_text textB
          have quote : (literalChars (.string y) ++ t).head? = some '\x27' := head?_textLiteral y t
          rw [← h] at quote
          exact absurd quote (head?_word textA hs)
  | true =>
      obtain ⟨x, rfl⟩ := exists_text textA
      cases textB : b.isString with
      | false =>
          have quote : (literalChars (.string x) ++ s).head? = some '\x27' := head?_textLiteral x s
          rw [h] at quote
          exact absurd quote (head?_word textB ht)
      | true =>
          obtain ⟨y, rfl⟩ := exists_text textB
          obtain ⟨rfl, rest⟩ := textLiteral_readable x y s t trivial trivial trivial trivial h
          exact ⟨rfl, rest⟩

end Ontograph.Query
