import Mathlib.Data.List.Find
import Mathlib.Data.List.Nodup
import Ontograph.Proofs.Text.Words
import Ontograph.Query.Template

/-!
# Filling templates

What filling a template does, said without the scan: at each place, if the text begins with a token
that has a value, the value is put down and the token is passed over, and otherwise one character is
copied.  The scan does just that, on every text, as long as no name of a token has a percent sign.

Filling twice, with a table and then with one more token, is filling once when each percent sign of
the template belongs to one token; except that the second filling also looks into the values that the
first one has put down.

Main statements: `fill_eq` (the scan fills place by place), `replace_eq_self` (text without tokens is
copied), `replace_replace` (two fillings in one).
-/

namespace Ontograph.Template

/-! ## Place by place -/

/-- A token, between its percent signs. -/
def token (name : List Char) : List Char :=
  '%' :: (name ++ ['%'])

/-- The first entry whose token stands at the start of a text. -/
def leading? (values : List (String × String)) (text : List Char) : Option (String × String) :=
  values.find? fun e => (token e.1.toList).isPrefixOf text

/-- A text with the values in the place of their tokens.  What is put in is not looked at again. -/
def replace (values : List (String × String)) : List Char → List Char
  | [] => []
  | c :: rest =>
      match leading? values (c :: rest) with
      | some (name, value) => value.toList ++ replace values (rest.drop (name.length + 1))
      | none => c :: replace values rest
termination_by text => text.length

variable {values : List (String × String)}

@[simp] theorem replace_nil : replace values [] = [] := by
  rw [replace]

theorem token_append (name text : List Char) : token name ++ text = '%' :: (name ++ '%' :: text) := by
  simp [token]

theorem leading?_eq_some {text : List Char} {e : String × String}
    (h : leading? values text = some e) : token e.1.toList <+: text := by
  have starts := List.find?_some h
  exact List.isPrefixOf_iff_prefix.1 starts

theorem leading?_eq_none {text : List Char} :
    leading? values text = none ↔ ∀ e ∈ values, ¬ token e.1.toList <+: text := by
  simp [leading?]

/-- Only a percent sign begins a token. -/
theorem leading?_of_ne {c : Char} {rest : List Char} (h : c ≠ '%') :
    leading? values (c :: rest) = none := by
  refine leading?_eq_none.2 fun e _ starts => ?_
  obtain ⟨same, -⟩ := List.cons_prefix_cons.1 starts
  exact h same.symm

theorem replace_token {name : List Char} {rest : List Char} {e : String × String}
    (h : leading? values (token name ++ rest) = some e) (he : e.1.toList = name) :
    replace values (token name ++ rest) = e.2.toList ++ replace values rest := by
  subst he
  rw [token_append] at h ⊢
  rw [replace, h]
  show e.2.toList ++ replace values ((e.1.toList ++ '%' :: rest).drop (e.1.length + 1)) = _
  congr 2
  rw [← String.length_toList, List.drop_append, List.drop_eq_nil_of_le (Nat.le_succ _)]
  simp

theorem replace_cons {c : Char} {rest : List Char} (h : leading? values (c :: rest) = none) :
    replace values (c :: rest) = c :: replace values rest := by
  rw [replace, h]

/-- Text without percent signs is copied. -/
theorem replace_append {text : List Char} (h : '%' ∉ text) (rest : List Char) :
    replace values (text ++ rest) = text ++ replace values rest := by
  induction text with
  | nil => rfl
  | cons c text ih =>
      obtain ⟨hc, ht⟩ := List.ne_and_not_mem_of_not_mem_cons h
      show replace values (c :: (text ++ rest)) = c :: (text ++ replace values rest)
      rw [replace_cons (leading?_of_ne (Ne.symm hc)), ih ht]

/-- Text without tokens is copied. -/
theorem replace_eq_self {text : List Char} (h : ∀ e ∈ values, ¬ token e.1.toList <:+: text) :
    replace values text = text := by
  induction text with
  | nil => rw [replace_nil]
  | cons c rest ih =>
      have none : leading? values (c :: rest) = none :=
        leading?_eq_none.2 fun e he starts => h e he starts.isInfix
      rw [replace_cons none, ih fun e he inside => h e he (inside.trans (List.suffix_cons c rest).isInfix)]

/-! ## The scan -/

/-- No name of a token has a percent sign. -/
def Named (values : List (String × String)) : Prop :=
  ∀ e ∈ values, '%' ∉ e.1.toList

/-- A token that stands at the start of a text is the only one that does. -/
theorem name_eq_of_starts {a b rest : List Char} (ha : '%' ∉ a) (hb : '%' ∉ b)
    (h : token a <+: token b ++ rest) : a = b := by
  obtain ⟨s, h⟩ := h
  rw [token_append, token_append] at h
  -- Both names reach to the first percent sign, which is the last one of the text turned around.
  have reversed := congrArg List.reverse (List.cons.inj h).2
  simp only [List.reverse_append, List.reverse_cons, List.append_assoc, List.singleton_append]
    at reversed
  exact List.reverse_injective
    (eq_of_append_cons_eq reversed (by simpa using ha) (by simpa using hb)).2

theorem leading?_token (named : Named values) {name : String} (h : '%' ∉ name.toList)
    (rest : List Char) :
    leading? values (token name.toList ++ rest) = values.find? (·.1 = name) := by
  refine List.find?_congr fun e he => ?_
  rw [Bool.eq_iff_iff, decide_eq_true_iff, List.isPrefixOf_iff_prefix]
  constructor
  · intro starts
    exact String.toList_inj.1 (name_eq_of_starts (named e he) h starts)
  · intro same
    rw [same]
    exact List.prefix_append _ rest

/-- The token of a name in the table stands for an entry of that name. -/
theorem exists_leading? (named : Named values) {name : List Char}
    (known : name ∈ values.map (·.1.toList)) (rest : List Char) :
    ∃ e ∈ values, e.1.toList = name ∧ leading? values (token name ++ rest) = some e := by
  obtain ⟨e, he, rfl⟩ := List.mem_map.1 known
  have isSome : (values.find? (·.1 = e.1)).isSome := List.find?_isSome.2 ⟨e, he, by simp⟩
  obtain ⟨found, hfound⟩ := Option.isSome_iff_exists.1 isSome
  have same : found.1 = e.1 := by simpa using List.find?_some hfound
  refine ⟨found, List.mem_of_find?_eq_some hfound, congrArg String.toList same, ?_⟩
  rw [leading?_token named (named e he), hfound]

theorem leading?_cons_self (key value : String) (table : List (String × String))
    (rest : List Char) :
    leading? ((key, value) :: table) (token key.toList ++ rest) = some (key, value) :=
  List.find?_cons_of_pos (List.isPrefixOf_iff_prefix.2 (List.prefix_append _ rest))

theorem leading?_cons_of_ne {key : String} (value : String) {name : List Char} (hk : '%' ∉ key.toList)
    (hn : '%' ∉ name) (ne : key.toList ≠ name) (table : List (String × String)) (rest : List Char) :
    leading? ((key, value) :: table) (token name ++ rest) = leading? table (token name ++ rest) := by
  refine List.find?_cons_of_neg fun starts => ne ?_
  exact name_eq_of_starts hk hn (List.isPrefixOf_iff_prefix.1 starts)

theorem leading?_map (values : List (String × String)) (f : String → String) (text : List Char) :
    leading? (values.map fun e => (e.1, f e.2)) text =
      (leading? values text).map fun e => (e.1, f e.2) :=
  List.find?_map

theorem leading?_unmatched {pending : List Char} (h : '%' ∉ pending) :
    leading? values ('%' :: pending) = none := by
  refine leading?_eq_none.2 fun e _ starts => ?_
  have twice := starts.sublist.count_le '%'
  have once : ('%' :: pending).count '%' = 1 := by
    simp [List.count_eq_zero.2 h]
  have ends : 2 ≤ (token e.1.toList).count '%' := by
    simp [token]
  omega

/-- The scan, outside a token and after an open percent sign. -/
theorem scan_eq (named : Named values) (rest : List Char) :
    (∀ done, (scan values none done rest).reverse = done.reverse ++ replace values rest) ∧
    ∀ pending done, '%' ∉ pending → (scan values (some pending) done rest).reverse =
      done.reverse ++ replace values ('%' :: (pending.reverse ++ rest)) := by
  induction rest with
  | nil =>
      constructor
      · intro done
        simp [scan]
      · intro pending done closed
        have closed' : '%' ∉ pending.reverse := by simpa using closed
        have copied : replace values (pending.reverse ++ []) = pending.reverse ++ replace values [] :=
          replace_append closed' []
        rw [replace_cons (by simpa using leading?_unmatched closed'), copied]
        simp [scan]
  | cons c rest ih =>
      obtain ⟨outside, inside⟩ := ih
      constructor
      · intro done
        rw [scan]
        split
        · next percent =>
            rw [inside [] done (by simp), percent]
            rfl
        · next other =>
            rw [outside, replace_cons (leading?_of_ne other)]
            simp
      · intro pending done closed
        rw [scan]
        have closed' : '%' ∉ (String.ofList pending.reverse).toList := by simpa using closed
        split
        · next percent =>
            subst percent
            have start := leading?_token named closed' rest
            rw [String.toList_ofList, token_append] at start
            cases found : values.find? (·.1 = String.ofList pending.reverse) with
            | some e =>
                have same : e.1 = String.ofList pending.reverse := by
                  simpa using List.find?_some found
                have step : replace values (token pending.reverse ++ rest) =
                    e.2.toList ++ replace values rest :=
                  replace_token (by rw [token_append, start, found])
                    (by rw [same, String.toList_ofList])
                rw [token_append] at step
                simp only [value?, found, Option.map_some, outside, step]
                simp
            | none =>
                rw [found] at start
                have unmatched : '%' ∉ pending.reverse := by simpa using closed
                simp only [value?, found, Option.map_none]
                rw [inside [] _ (by simp), replace_cons start, replace_append unmatched]
                simp
        · next other =>
            rw [inside (c :: pending) done (by simp [closed, Ne.symm other])]
            simp

/-- Filling a template goes place by place. -/
theorem fill_eq (named : Named values) (template : String) :
    fill values template = String.ofList (replace values template.toList) := by
  have run := (scan_eq named template.toList).1 []
  rw [fill, run, List.reverse_nil, List.nil_append]

/-! ## Two fillings -/

/-- A template with tokens of the given names: each percent sign belongs to a token, and the one that
closes a token does not open another. -/
inductive Formed (names : List (List Char)) : List Char → Prop
  | nil : Formed names []
  | char {c : Char} {rest : List Char} : c ≠ '%' → Formed names rest → Formed names (c :: rest)
  | token {name rest : List Char} : name ∈ names →
      (∀ other ∈ names, ¬ token other <+: '%' :: rest) → Formed names rest →
      Formed names (token name ++ rest)

/-- Whether a template is formed, read from left to right; after an open percent sign with the
characters since then, last one first. -/
def isFormed (names : List (List Char)) : Option (List Char) → List Char → Bool
  | none, [] => true
  | some _, [] => false
  | none, c :: rest => if c = '%' then isFormed names (some []) rest else isFormed names none rest
  | some pending, c :: rest =>
      if c = '%' then
        names.contains pending.reverse &&
          names.all (fun other => !(token other).isPrefixOf ('%' :: rest)) &&
          isFormed names none rest
      else isFormed names (some (c :: pending)) rest

theorem isFormed_sound (names : List (List Char)) (rest : List Char) :
    (isFormed names none rest → Formed names rest) ∧
    ∀ pending, isFormed names (some pending) rest →
      Formed names ('%' :: (pending.reverse ++ rest)) := by
  induction rest with
  | nil =>
      constructor
      · intro _
        exact .nil
      · intro pending h
        exact absurd h Bool.false_ne_true
  | cons c rest ih =>
      obtain ⟨outside, inside⟩ := ih
      constructor
      · intro h
        rw [isFormed] at h
        split at h
        · next percent =>
            subst percent
            exact inside [] h
        · next other => exact .char other (outside h)
      · intro pending h
        rw [isFormed] at h
        split at h
        · next percent =>
            subst percent
            rw [Bool.and_eq_true, Bool.and_eq_true] at h
            obtain ⟨⟨known, apart⟩, after⟩ := h
            rw [← token_append]
            refine .token (List.contains_iff_mem.1 known) (fun other member starts => ?_)
              (outside after)
            have free := List.all_eq_true.1 apart other member
            rw [List.isPrefixOf_iff_prefix.2 starts] at free
            exact absurd free Bool.false_ne_true
        · next other => simpa using inside (c :: pending) h

/-- A value whose end opens no token of the given name: it has no percent sign, or its last character
does not occur in the token. -/
def Closed (key : String) (value : List Char) : Prop :=
  '%' ∉ value ∨ ∃ text c, value = text ++ [c] ∧ c ∉ token key.toList

/-- Induction along a filling: a text is empty, or begins with a token that has a value, or with a
character that is copied. -/
theorem replace_induction (values : List (String × String)) {motive : List Char → Prop} (nil : motive [])
    (token : ∀ e rest, leading? values (token e.1.toList ++ rest) = some e → motive rest →
      motive (token e.1.toList ++ rest))
    (char : ∀ c rest, leading? values (c :: rest) = none → motive rest → motive (c :: rest))
    (text : List Char) : motive text := by
  induction len : text.length using Nat.strong_induction_on generalizing text with
  | _ _ ih =>
      cases text with
      | nil => exact nil
      | cons c rest =>
          cases found : leading? values (c :: rest) with
          | none => exact char c rest found (ih _ (by simp [← len]) rest rfl)
          | some e =>
              obtain ⟨after, same⟩ := leading?_eq_some found
              rw [← same] at found len ⊢
              refine token e after found (ih _ ?_ after rfl)
              rw [← len, token_append]
              simp
              omega

/-- A character that no token has parts a text in two. -/
theorem replace_append_cons {c : Char} (h : ∀ e ∈ values, c ∉ token e.1.toList)
    (text rest : List Char) :
    replace values (text ++ c :: rest) = replace values text ++ c :: replace values rest := by
  have reach : ∀ text, leading? values (text ++ c :: rest) = leading? values text := by
    intro text
    refine List.find?_congr fun e he => ?_
    rw [Bool.eq_iff_iff, List.isPrefixOf_iff_prefix, List.isPrefixOf_iff_prefix]
    constructor
    · intro starts
      have upTo : text ++ [c] <+: text ++ c :: rest := ⟨rest, by simp⟩
      rcases List.prefix_or_prefix_of_prefix starts upTo with inside | beyond
      · rcases List.prefix_concat_iff.1 inside with same | inside
        · exact absurd (same ▸ by simp) (h e he)
        · exact inside
      · exact absurd (beyond.subset (by simp)) (h e he)
    · intro starts
      exact starts.trans (List.prefix_append text _)
  induction text using replace_induction values with
  | nil =>
      have start : leading? values (c :: rest) = none := by
        rw [← List.nil_append (c :: rest), reach, leading?_eq_none]
        intro e _ starts
        exact absurd (List.prefix_nil.1 starts) (by simp [Template.token])
      rw [List.nil_append, replace_cons start, replace_nil, List.nil_append]
  | token e text found ih =>
      have found' := reach (token e.1.toList ++ text)
      rw [found, List.append_assoc] at found'
      rw [List.append_assoc, replace_token found' rfl, replace_token found rfl, ih, List.append_assoc]
  | char d text found ih =>
      have found' := reach (d :: text)
      rw [found, List.cons_append] at found'
      rw [replace_cons found, List.cons_append, replace_cons found', ih, List.cons_append]

/-- What follows a closed value is filled on its own. -/
theorem Closed.replace_append {key : String} {text : List Char} (h : Closed key text)
    (value : String) (rest : List Char) :
    replace [(key, value)] (text ++ rest) =
      replace [(key, value)] text ++ replace [(key, value)] rest := by
  rcases h with plain | ⟨text, c, rfl, apart⟩
  · have whole : replace [(key, value)] (text ++ []) = text ++ replace [(key, value)] [] :=
      Template.replace_append plain []
    rw [Template.replace_append plain, ← List.append_nil text, whole]
    simp
  · have free : ∀ e ∈ [(key, value)], c ∉ token e.1.toList := by simpa using apart
    rw [List.append_assoc, List.singleton_append, replace_append_cons free,
      replace_append_cons free text [], replace_nil, List.append_assoc]
    rfl

/-- Filling the tokens of a table and then one more token is filling all of them at once, where the
values of the table have had the one token filled. -/
theorem replace_replace {key : String} (value : String) {template : List Char} (named : Named values)
    (keyNamed : '%' ∉ key.toList) (new : ∀ e ∈ values, e.1 ≠ key)
    (closed : ∀ e ∈ values, Closed key e.2.toList)
    (formed : Formed (key.toList :: values.map (·.1.toList)) template) :
    replace [(key, value)] (replace values template) =
      replace ((key, value) :: values.map fun e =>
        (e.1, String.ofList (replace [(key, value)] e.2.toList))) template := by
  induction formed with
  | nil => simp
  | @char c rest hc _ ih =>
      have plain : ∀ {table : List (String × String)}, leading? table (c :: rest) = none :=
        leading?_of_ne hc
      rw [replace_cons plain, replace_cons (leading?_of_ne hc), replace_cons plain, ih]
  | @token name rest known apart _ ih =>
      rcases List.mem_cons.1 known with rfl | known
      · -- The one token: the first filling leaves it in the text, percent signs and all.
        have left : leading? values (token key.toList ++ rest) = none := by
          rw [leading?_token named keyNamed, List.find?_eq_none]
          intro e he
          simpa using new e he
        have shut : leading? values ('%' :: rest) = none :=
          leading?_eq_none.2 fun e he => apart _ (List.mem_cons_of_mem _ (List.mem_map_of_mem he))
        have kept : replace values (token key.toList ++ rest) =
            token key.toList ++ replace values rest := by
          rw [token_append] at left ⊢
          rw [replace_cons left, replace_append keyNamed, replace_cons shut, token_append]
        rw [kept, replace_token (leading?_cons_self key value [] _) rfl,
          replace_token (leading?_cons_self key value _ rest) rfl, ih]
      · -- A token of the table: its value is put in and then filled.
        obtain ⟨e, he, rfl, start⟩ := exists_leading? named known rest
        have start' := leading?_map values (fun v => String.ofList (replace [(key, value)] v.toList))
          (token e.1.toList ++ rest)
        rw [start, ← leading?_cons_of_ne value keyNamed (named e he)
          (fun same => new e he (String.toList_inj.1 same).symm)] at start'
        rw [replace_token start rfl, (closed e he).replace_append, ih,
          replace_token start' rfl, String.toList_ofList]

end Ontograph.Template
