/-!
# Templates

A template is a text with tokens such as `%NAME%`.  Filling it puts values in the place of the tokens
that have one, in a single pass from left to right: inserted text is not looked at again, and a token
without a value stays as it is.

A percent sign that closes a word which is no token may open the next one, so the scan carries the
characters since the last percent sign.
-/

namespace Ontograph.Template

/-- The value of a token's name. -/
def value? (values : List (String × String)) (name : String) : Option String :=
  (values.find? (·.1 = name)).map (·.2)

/-- Fills the rest of a template.  `pending` holds the characters since an open percent sign, last
one first, if there is one; `done` is the text so far, last character first. -/
def scan (values : List (String × String)) :
    Option (List Char) → List Char → List Char → List Char
  | none, done, [] => done
  | some pending, done, [] => pending ++ '%' :: done
  | none, done, c :: rest =>
      if c = '%' then scan values (some []) done rest else scan values none (c :: done) rest
  | some pending, done, c :: rest =>
      if c = '%' then
        match value? values (String.ofList pending.reverse) with
        | some value => scan values none (value.toList.reverse ++ done) rest
        | none => scan values (some []) (pending ++ '%' :: done) rest
      else scan values (some (c :: pending)) done rest

/-- The template with the values in the place of their tokens. -/
def fill (values : List (String × String)) (template : String) : String :=
  String.ofList (scan values none [] template.toList).reverse

end Ontograph.Template
