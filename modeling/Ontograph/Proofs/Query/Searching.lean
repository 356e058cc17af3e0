import Ontograph.Proofs.Query.CatalogText

/-!
# Filling by searching

A template can be filled without looking at each of its characters: search for a percent sign, copy what
stands before it, and search for the next one.  If the word between the two is the name of a token with a
value, the value is put down and the search goes on behind both signs.  Otherwise the first sign is copied
and the search goes on right behind it, since the second sign may open a token.

This gives what filling place by place gives, on every text, however its percent signs are paired.  Where
the tokens of a text are depends on the names of the tokens alone: with the same names and other values the
same segments are copied and the same ones are filled (`exists_segments`).

Main statement: `Catalog.filled_place_by_place`.
-/

namespace Ontograph

namespace Template

/-! ## Searching -/

/-- What stands before the first percent sign and what stands behind it, if there is one. -/
def atPercent : List Char → Option (List Char × List Char)
  | [] => none
  | c :: rest =>
      if c = '%' then some ([], rest)
      else (atPercent rest).map fun (before, after) => (c :: before, after)

theorem atPercent_eq_none {text : List Char} : atPercent text = none ↔ '%' ∉ text := by
  induction text with
  | nil => simp [atPercent]
  | cons c rest ih =>
      rw [atPercent, List.mem_cons, not_or, ← ih]
      split
      · next percent => simp [percent]
      · next other => simp [Ne.symm other]

theorem atPercent_eq_some {text before after : List Char} (h : atPercent text = some (before, after)) :
    text = before ++ '%' :: after ∧ '%' ∉ before := by
  induction text generalizing before with
  | nil => cases h
  | cons c rest ih =>
      rw [atPercent] at h
      split at h
      · next percent =>
          cases h
          exact ⟨by rw [percent, List.nil_append], List.not_mem_nil⟩
      · next other =>
          obtain ⟨⟨start, _⟩, found, same⟩ := Option.map_eq_some_iff.1 h
          cases same
          obtain ⟨rfl, free⟩ := ih found
          exact ⟨rfl, by simp [free, Ne.symm other]⟩

theorem length_of_atPercent {text before after : List Char}
    (h : atPercent text = some (before, after)) : after.length < text.length := by
  rw [(atPercent_eq_some h).1]
  simp
  omega

/-- A text filled by searching for percent signs. -/
def search (values : List (String × String)) (text : List Char) : List Char :=
  match _first : atPercent text with
  | none => text
  | some (before, after) =>
      match _second : atPercent after with
      | none => before ++ '%' :: search values after
      | some (name, rest) =>
          match value? values (String.ofList name) with
          | some value => before ++ (value.toList ++ search values rest)
          | none => before ++ '%' :: search values after
termination_by text.length
decreasing_by
  · exact length_of_atPercent _first
  · exact (length_of_atPercent _second).trans (length_of_atPercent _first)
  · exact length_of_atPercent _first

variable {values : List (String × String)}

theorem replace_eq_self_of_not_mem {text : List Char} (h : '%' ∉ text) : replace values text = text := by
  have copied : replace values (text ++ []) = text ++ replace values [] := replace_append h []
  rwa [List.append_nil, replace_nil, List.append_nil] at copied

/-- The token that a word between percent signs is. -/
theorem leading?_word (named : Named values) {name : List Char} (plain : '%' ∉ name)
    (rest : List Char) :
    leading? values (token name ++ rest) = values.find? (·.1 = String.ofList name) := by
  have closed : '%' ∉ (String.ofList name).toList := by rwa [String.toList_ofList]
  simpa using leading?_token named closed rest

/-- Searching goes place by place. -/
theorem search_eq_replace (named : Named values) (text : List Char) :
    search values text = replace values text := by
  fun_induction search values text with
  | case1 text first => rw [replace_eq_self_of_not_mem (atPercent_eq_none.1 first)]
  | case2 text before after first second ih =>
      obtain ⟨rfl, free⟩ := atPercent_eq_some first
      rw [replace_append free, replace_cons (leading?_unmatched (atPercent_eq_none.1 second)), ih]
  | case3 text before after first name rest second value known ih =>
      obtain ⟨rfl, free⟩ := atPercent_eq_some first
      obtain ⟨rfl, plain⟩ := atPercent_eq_some second
      obtain ⟨e, found, rfl⟩ := Option.map_eq_some_iff.1 known
      have start := leading?_word named plain rest
      rw [found] at start
      have same : e.1 = String.ofList name := by simpa using List.find?_some found
      rw [replace_append free, ← token_append,
        replace_token start (by rw [same, String.toList_ofList]), ih]
  | case4 text before after first name rest second unknown ih =>
      obtain ⟨rfl, free⟩ := atPercent_eq_some first
      obtain ⟨rfl, plain⟩ := atPercent_eq_some second
      have start := leading?_word named plain rest
      rw [Option.map_eq_none_iff.1 unknown, token_append] at start
      rw [replace_append free, replace_cons start, ih]

/-! ## Segments -/

/-- A segment of a template: one character, or a token by its name. -/
inductive Segment where
  | char (c : Char)
  | token (name : String)

namespace Segment

/-- The characters of a segment in the template. -/
def source : Segment → List Char
  | char c => [c]
  | token name => Template.token name.toList

/-- The characters of a segment in the filled template: a value stands as it is. -/
def filled (values : List (String × String)) : Segment → List Char
  | char c => [c]
  | token name => ((value? values name).getD "").toList

end Segment

/-- Tables with the same names have their tokens at the same places. -/
theorem map_leading? (values : List (String × String)) (text : List Char) :
    (leading? values text).map (·.1) =
      (values.map (·.1)).find? fun name => (token name.toList).isPrefixOf text := by
  rw [List.find?_map]
  rfl

theorem named_of_names {others : List (String × String)} (named : Named values)
    (names : others.map (·.1) = values.map (·.1)) : Named others := by
  intro e he
  have member : e.1 ∈ values.map (·.1) := names ▸ List.mem_map_of_mem he
  obtain ⟨e', he', same⟩ := List.mem_map.1 member
  rw [← same]
  exact named e' he'

/-- Which segments a template has depends on the names of the tokens and not on their values. -/
theorem exists_segments (named : Named values) (text : List Char) :
    ∃ segments : List Segment, segments.flatMap Segment.source = text ∧
      ∀ others : List (String × String), others.map (·.1) = values.map (·.1) →
        replace others text = segments.flatMap (Segment.filled others) := by
  have leads : ∀ {others : List (String × String)}, others.map (·.1) = values.map (·.1) →
      ∀ text, (leading? others text).map (·.1) = (leading? values text).map (·.1) := by
    intro others names text
    rw [map_leading?, map_leading?, names]
  induction text using replace_induction values with
  | nil => exact ⟨[], rfl, fun others _ => replace_nil⟩
  | token e rest found ih =>
      obtain ⟨segments, spelled, filled⟩ := ih
      refine ⟨.token e.1 :: segments, by rw [List.flatMap_cons, spelled]; rfl, fun others names => ?_⟩
      obtain ⟨e', found', same⟩ : ∃ e', leading? others (token e.1.toList ++ rest) = some e' ∧
          e'.1 = e.1 := by
        have name := leads names (token e.1.toList ++ rest)
        rw [found] at name
        exact Option.map_eq_some_iff.1 name
      have held := (leading?_token (named_of_names named names)
        (named e (List.mem_of_find?_eq_some found)) rest).symm.trans found'
      rw [replace_token found' (congrArg String.toList same), List.flatMap_cons, filled others names,
        Segment.filled, value?, held]
      rfl
  | char c rest found ih =>
      obtain ⟨segments, spelled, filled⟩ := ih
      refine ⟨.char c :: segments, by rw [List.flatMap_cons, spelled]; rfl, fun others names => ?_⟩
      have none : leading? others (c :: rest) = none := by
        have name := leads names (c :: rest)
        rwa [found, Option.map_none, Option.map_eq_none_iff] at name
      rw [replace_cons none, List.flatMap_cons, filled others names]
      rfl

end Template

/-! ## Catalogs of any templates -/

/-- Entries for other keys do not change the value of a key. -/
theorem Assoc.find?_foldl_put {κ υ : Type} [Ord κ] [Std.TransOrd κ] {key : κ} {entries : List (κ × υ)}
    (others : ∀ e ∈ entries, compare key e.1 ≠ .eq) (m : List (κ × υ)) :
    find? key (entries.foldl (fun m e => put e.1 e.2 m) m) = find? key m := by
  induction entries generalizing m with
  | nil => rfl
  | cons e rest ih =>
      obtain ⟨first, later⟩ := List.forall_mem_cons.1 others
      rw [List.foldl_cons, ih later, find?_put, if_neg first]

namespace Catalog

open Template

/-- The text of a query is made from the last template for it. -/
theorem get_ofTemplates (schema : Schema) (before after : List (CatalogQuery × String))
    {query : CatalogQuery} (template : String) (last : ∀ e ∈ after, e.1 ≠ query) :
    (ofTemplates schema (before ++ (query, template) :: after)).get query =
      .ok (fill (tokens schema) template) := by
  have others : ∀ e ∈ after.map fun e => (e.1, fill (tokens schema) e.2), compare query e.1 ≠ .eq := by
    refine List.forall_mem_map.2 fun e he same => ?_
    exact last e he (compare_eq_iff.1 same).symm
  have own : compare query query = .eq := compare_eq_iff.2 rfl
  rw [get, ofTemplates, List.map_append, List.map_cons, Assoc.ofList, List.foldl_append,
    List.foldl_cons, Assoc.find?_foldl_put others, Assoc.find?_put, if_pos own]

/-- Filling a template goes place by place, and so does filling it by searching, for every template and every
table without percent signs in its names.  Which segments are filled does not depend on the values, which are
copied as they are.  All texts of a catalog come about in this way, also those of templates of its own. -/
theorem filled_place_by_place :
    (∀ values, Named values → ∀ template : String,
      fill values template = String.ofList (replace values template.toList) ∧
      fill values template = String.ofList (search values template.toList) ∧
      ∃ segments : List Segment, segments.flatMap Segment.source = template.toList ∧
        ∀ others : List (String × String), others.map (·.1) = values.map (·.1) →
          fill others template = String.ofList (segments.flatMap (Segment.filled others))) ∧
    ∀ schema before query template after, (∀ e ∈ after, e.1 ≠ query) →
      (ofTemplates schema (before ++ (query, template) :: after)).get query =
        .ok (String.ofList (replace (tokens schema) template.toList)) := by
  constructor
  · intro values named template
    obtain ⟨segments, spelled, filled⟩ := exists_segments named template.toList
    refine ⟨fill_eq named template, ?_, segments, spelled, fun others names => ?_⟩
    · rw [fill_eq named, search_eq_replace named]
    · rw [fill_eq (named_of_names named names), filled others names]
  · intro schema before query template after last
    have named : Named (tokens schema) := fun e he => (tokens_named schema e he).1
    rw [get_ofTemplates schema before after template last, fill_eq named]

/-- Percent signs that stand alone, that close one token and open the next, and that are put in. -/
theorem filled_place_by_place_percents :
    Named [("A", "%B%"), ("B", "b")] ∧
    fill [("A", "%B%"), ("B", "b")] "100% %A%B%%C%A%" =
      String.ofList (replace [("A", "%B%"), ("B", "b")] "100% %A%B%%C%A%".toList) ∧
    fill [("A", "%B%"), ("B", "b")] "100% %A%B%%C%A%" =
      String.ofList (search [("A", "%B%"), ("B", "b")] "100% %A%B%%C%A%".toList) ∧
    fill [("A", "%B%"), ("B", "b")] "100% %A%B%%C%A%" = "100% %B%B%%C%B%" ∧
    (ofTemplates {} [(.classes, "%CLASS%%"), (.classes, "%%CLASS%")]).get .classes =
      .ok (String.ofList (replace (tokens {}) "%%CLASS%".toList)) := by
  obtain ⟨fillings, catalogs⟩ := filled_place_by_place
  have named : Named [("A", "%B%"), ("B", "b")] := by
    unfold Named
    decide
  obtain ⟨places, searching, -⟩ := fillings _ named "100% %A%B%%C%A%"
  exact ⟨named, places, searching, by decide +kernel,
    catalogs {} [(.classes, "%CLASS%%")] .classes "%%CLASS%" [] nofun⟩

end Catalog

end Ontograph
