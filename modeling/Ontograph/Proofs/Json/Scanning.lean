import Ontograph.Json.Printer
import Ontograph.Proofs.Attempts
import Ontograph.Proofs.Number.Grammar

/-!
# Tokens of compact texts

The compact text of a value is cut into the tokens of the value (`Json.tokens`).  A string is read from
quote to quote with every escape resolved; a word or a numeral is read up to the mark that comes after
it, or to the end of the text.

Scanning is described by what it makes of a text between two tokens (`Scan.tokens?`), so that the text of
a value can be taken off what follows it.

Main statement: `ofText?_compact`.
-/

namespace Ontograph

namespace Json

/-! ## Values and their tokens -/

/-- A value that its text shows as it is: no string in it is unreadable, and its numerals are
well-formed. -/
inductive Writable : Json → Prop where
  | null : Writable null
  | bool (b : Bool) : Writable (bool b)
  | number {n : Numeral} (formed : n.Formed) : Writable (number n)
  | string (s : String) : Writable (string s)
  | array {items : List Json} (each : ∀ v ∈ items, Writable v) : Writable (array items)
  | object {members : List (String × Json)} (each : ∀ member ∈ members, Writable member.2) :
      Writable (object members)

theorem Writable.record {members : List (String × Json)}
    (each : ∀ v ∈ members.map Prod.snd, v.Writable) : (Json.object members).Writable :=
  .object fun _ hm => each _ (List.mem_map_of_mem hm)

theorem Writable.strings (l : List String) : (Json.strings l).Writable :=
  .array (List.forall_mem_map.2 fun s _ => .string s)

mutual

/-- The tokens of a value. -/
def tokens : Json → List Token
  | null => [.null]
  | bool b => [.bool b]
  | number n => [.number n]
  | string s => [.string (some s)]
  | array [] => [.openBracket, .closeBracket]
  | array (v :: items) => .openBracket :: (v.tokens ++ itemTokens items)
  | object [] => [.openBrace, .closeBrace]
  | object ((key, v) :: members) =>
      .openBrace :: .string (some key) :: .colon :: (v.tokens ++ memberTokens members)
  | unreadable => [.string none]

/-- The tokens of the elements after the first one, and of the end of the array. -/
def itemTokens : List Json → List Token
  | [] => [.closeBracket]
  | v :: items => .comma :: (v.tokens ++ itemTokens items)

/-- The tokens of the members after the first one, and of the end of the object. -/
def memberTokens : List (String × Json) → List Token
  | [] => [.closeBrace]
  | (key, v) :: members =>
      .comma :: .string (some key) :: .colon :: (v.tokens ++ memberTokens members)

end

/-- Whether a character goes on in a word or numeral: it is no blank, mark or quote. -/
def Token.isWordChar (c : Char) : Bool :=
  !(isBlank c || c = '"' || (mark? c).isSome)

namespace Scan

variable {rest : List Char} {done : List Token}

/-- The tokens of a text that goes on between two tokens, after those that are done. -/
def tokens? (text : List Char) (done : List Token) : Option (List Token) :=
  (run text ⟨.between, done⟩).bind finish

theorem tokens?_mark {c : Char} {token : Token} (mark : Token.mark? c = some token) :
    tokens? (c :: rest) done = tokens? rest (token :: done) := by
  have other : Token.isBlank c = false ∧ c ≠ '"' := by
    unfold Token.mark? at mark
    split at mark <;> first | exact ⟨rfl, by decide⟩ | cases mark
  simp only [tokens?, run, step, begin, other.1, other.2, mark]
  rfl

/-! ## Words -/

theorem run_word {word : List Char} (plain : ∀ c ∈ word, Token.isWordChar c) (seen : List Char) :
    run (word ++ rest) ⟨.bare seen, done⟩ = run rest ⟨.bare (word.reverse ++ seen), done⟩ := by
  induction word generalizing seen with
  | nil => rfl
  | cons c word ih =>
      obtain ⟨first, others⟩ := List.forall_mem_cons.1 plain
      have goesOn : (Token.isBlank c || c = '"' || (Token.mark? c).isSome) = false := by
        simpa [Token.isWordChar] using first
      rw [List.cons_append, run]
      simp only [step, goesOn]
      rw [List.reverse_cons, List.append_assoc]
      exact ih others (c :: seen)

/-- A word ends where no character goes on in it. -/
theorem finish_word (seen : List Char) (stop : Stops Token.isWordChar rest) :
    (run rest ⟨.bare seen, done⟩).bind finish =
      (Token.bare? seen.reverse).bind fun token => tokens? rest (token :: done) := by
  cases rest with
  | nil => cases found : Token.bare? seen.reverse <;> simp [run, finish, tokens?, found]
  | cons c rest =>
      have ends : (Token.isBlank c || c = '"' || (Token.mark? c).isSome) = true := by
        simpa only [Token.isWordChar, Bool.not_eq_false'] using stops_cons.1 stop
      rw [run]
      simp only [step, ends, if_true]
      cases Token.bare? seen.reverse <;> rfl

/-- A word or numeral is the token that it is by itself. -/
theorem tokens?_word (word : List Char) (nonempty : word ≠ [])
    (plain : ∀ c ∈ word, Token.isWordChar c) (stop : Stops Token.isWordChar rest) :
    tokens? (word ++ rest) done =
      (Token.bare? word).bind fun token => tokens? rest (token :: done) := by
  obtain ⟨c, word, rfl⟩ := List.exists_cons_of_ne_nil nonempty
  obtain ⟨first, others⟩ := List.forall_mem_cons.1 plain
  obtain ⟨⟨notBlank, notQuote⟩, notMark⟩ : (Token.isBlank c = false ∧ c ≠ '"') ∧
      Token.mark? c = none := by
    simpa [Token.isWordChar] using first
  have begun : begin done c = ⟨.bare [c], done⟩ := by
    simp [begin, notBlank, notQuote, notMark]
  rw [List.cons_append, tokens?, run]
  simp only [step, begun]
  rw [run_word others, finish_word _ stop]
  simp

/-! ## Strings -/

theorem hexDigit?_hexChar {n : Nat} (h : n < 16) : hexDigit? (hexChar n) = some n := by
  have all : ∀ n : Fin 16, hexDigit? (hexChar n) = some n.val := by decide
  exact all ⟨n, h⟩

/-- However a character is written in a string, it is read as that character. -/
theorem run_stringChar (c : Char) (content : Content) :
    run (stringChar c ++ rest) ⟨.quoted content, done⟩ =
      run rest ⟨.quoted (content.push c), done⟩ := by
  unfold stringChar
  split
  iterate 7 exact rfl
  next quote backslash _ _ _ _ _ =>
    split
    · next control =>
        have high := hexDigit?_hexChar (n := c.toNat / 16) (by omega)
        have low := hexDigit?_hexChar (n := c.toNat % 16) (by omega)
        have zero : hexDigit? '0' = some 0 := rfl
        have unit : 16 * (c.toNat / 16) + c.toNat % 16 = c.toNat := Nat.div_add_mod ..
        have pushed : content.pushUnit c.toNat = content.push c := by
          rw [Content.pushUnit, if_neg (by omega), if_neg (by omega), Char.ofNat_toNat]
        simp [run, step, high, low, zero, unit, pushed]
    · next plain =>
        rw [List.singleton_append, run]
        simp only [step]
        rw [if_neg quote, if_neg backslash, if_neg plain]

/-- The content of a string after some characters. -/
theorem foldl_push (chars : List Char) (before : List (Option Char)) :
    chars.foldl Content.push ⟨before, none⟩ = ⟨(chars.map some).reverse ++ before, none⟩ := by
  induction chars generalizing before with
  | nil => rfl
  | cons c chars ih =>
      rw [List.foldl_cons, Content.push, Content.settled, ih]
      simp

/-- A string is read up to its closing quote. -/
theorem run_quoted (chars : List Char) (content : Content) :
    run (chars.foldr (fun c tail => stringChar c ++ tail) ('"' :: rest)) ⟨.quoted content, done⟩ =
      run rest ⟨.between, .string (chars.foldl Content.push content).text? :: done⟩ := by
  induction chars generalizing content with
  | nil => rfl
  | cons c chars ih => rw [List.foldr_cons, run_stringChar, ih, List.foldl_cons]

/-- A string is the token of its text. -/
theorem tokens?_string (s : String) :
    tokens? (writeString s rest) done = tokens? rest (.string (some s) :: done) := by
  have text : (s.toList.foldl Content.push Content.empty).text? = some s := by
    have shown : (s.toList.map some).mapM id = some s.toList := mapM_map_eq_some fun _ _ => rfl
    rw [Content.empty, foldl_push, Content.text?, Content.settled, List.append_nil,
      List.reverse_reverse, shown, Option.map_some, String.ofList_toList]
  have read : run (writeString s rest) ⟨.between, done⟩ =
      run rest ⟨.between, .string (some s) :: done⟩ := by
    rw [← text]
    exact run_quoted s.toList Content.empty
  rw [tokens?, read, tokens?]

/-! ## Numerals -/

theorem tokens?_numeral {n : Numeral} (formed : n.Formed) (stop : Stops Token.isWordChar rest) :
    tokens? (n.chars true ++ rest) done = tokens? rest (.number n :: done) := by
  have plain : ∀ c ∈ n.chars true, Token.isWordChar c := by
    intro c hc
    rcases Numeral.mem_chars_true hc with hc | rfl
    · exact Numeral.forall_mem_chars (p := (Token.isWordChar · = true)) (by decide) (by decide)
        (by decide) (by decide) n c hc
    · decide
  have read := Token.bare?_chars formed
  have nonempty : n.chars true ≠ [] := by
    intro none
    rw [none] at read
    cases read
  rw [tokens?_word _ nonempty plain stop, read]
  rfl

/-! ## Values -/

/-- What comes after the first element of an array ends a word. -/
theorem stops_writeItems (items : List Json) : Stops Token.isWordChar (writeItems rest items) := by
  cases items <;> exact stops_cons.2 (by decide)

theorem stops_writeMembers (members : List (String × Json)) :
    Stops Token.isWordChar (writeMembers rest members) := by
  rcases members with _ | ⟨⟨key, v⟩, members⟩ <;> exact stops_cons.2 (by decide)

/-- Wherever its text ends a word, it is cut into the tokens of the value. -/
def Scanned (v : Json) : Prop :=
  ∀ rest done, Stops Token.isWordChar rest →
    tokens? (write rest v) done = tokens? rest (v.tokens.reverse ++ done)

theorem tokens?_writeItems {items : List Json} (each : ∀ v ∈ items, Scanned v) :
    tokens? (writeItems rest items) done = tokens? rest ((itemTokens items).reverse ++ done) := by
  induction items generalizing done with
  | nil => exact tokens?_mark rfl
  | cons v items ih =>
      obtain ⟨first, others⟩ := List.forall_mem_cons.1 each
      rw [writeItems, tokens?_mark rfl, first _ _ (stops_writeItems items), ih others, itemTokens]
      simp

theorem tokens?_writeMembers {members : List (String × Json)}
    (each : ∀ member ∈ members, Scanned member.2) :
    tokens? (writeMembers rest members) done =
      tokens? rest ((memberTokens members).reverse ++ done) := by
  induction members generalizing done with
  | nil => exact tokens?_mark rfl
  | cons member members ih =>
      obtain ⟨key, v⟩ := member
      obtain ⟨first, others⟩ := List.forall_mem_cons.1 each
      rw [writeMembers, tokens?_mark rfl, tokens?_string, tokens?_mark rfl,
        first _ _ (stops_writeMembers members), ih others, memberTokens]
      simp

theorem scanned_of_writable {v : Json} (writable : v.Writable) : Scanned v := by
  induction writable with
  | null =>
      intro rest done stop
      exact tokens?_word ['n', 'u', 'l', 'l'] (by decide) (List.all_eq_true.1 rfl) stop
  | bool b =>
      intro rest done stop
      cases b with
      | true => exact tokens?_word ['t', 'r', 'u', 'e'] (by decide) (List.all_eq_true.1 rfl) stop
      | false =>
          exact tokens?_word ['f', 'a', 'l', 's', 'e'] (by decide) (List.all_eq_true.1 rfl) stop
  | number formed => exact fun _ _ stop => tokens?_numeral formed stop
  | string s => exact fun _ _ _ => tokens?_string s
  | @array items each ih =>
      intro rest done _
      cases items with
      | nil => exact (tokens?_mark rfl).trans (tokens?_mark rfl)
      | cons v items =>
          obtain ⟨first, others⟩ := List.forall_mem_cons.1 ih
          rw [write, tokens?_mark rfl, first _ _ (stops_writeItems items), tokens?_writeItems others,
            tokens]
          simp
  | @object members each ih =>
      intro rest done _
      cases members with
      | nil => exact (tokens?_mark rfl).trans (tokens?_mark rfl)
      | cons member members =>
          obtain ⟨key, v⟩ := member
          obtain ⟨first, others⟩ := List.forall_mem_cons.1 ih
          rw [write, tokens?_mark rfl, tokens?_string, tokens?_mark rfl,
            first _ _ (stops_writeMembers members), tokens?_writeMembers others, tokens]
          simp

end Scan

/-- The compact text of a value has the tokens of the value. -/
theorem ofText?_compact {v : Json} (writable : v.Writable) :
    Token.ofText? (compact v) = some v.tokens := by
  have read := Scan.scanned_of_writable writable [] [] (stops_nil _)
  rw [Token.ofText?, compact, String.toList_ofList]
  refine read.trans ?_
  simp [Scan.tokens?, Scan.run, Scan.finish]

end Json

end Ontograph
