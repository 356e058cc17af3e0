import Ontograph.Proofs.Query.Substitution
import Ontograph.Proofs.Query.Unquoting
import Ontograph.Query.Catalog

/-!
# Texts of catalog queries

A template is filled twice, with the names of the schema when the catalog is made and with a property
when the query is asked.  The templates are such that this is one filling, as far as the names of the
schema do not have the token of the property.

Main statements: `Catalog.get_ofSchema` (the text of each query), `Catalog.keyed_in_one_pass` (the
text of a query about a property).
-/

namespace Ontograph.Catalog

open Query Template

/-! ## Templates -/

theorem append_ofList {s t : String} {l m : List Char} (hs : s = String.ofList l)
    (ht : t = String.ofList m) : s ++ t = String.ofList (l ++ m) := by
  rw [hs, ht, String.ofList_append]

/-- The characters of a template.  A literal is a list of characters by definition, so that the templates,
which are literals put together, can be gone through without decoding them. -/
def templateChars : (query : CatalogQuery) → {text : List Char // query.template = String.ofList text}
  | .classes => ⟨_, rfl⟩
  | .objectProperties => ⟨_, rfl⟩
  | .dataProperties => ⟨_, rfl⟩
  | .booleanDataProperties => ⟨_, append_ofList (append_ofList rfl rfl) rfl⟩
  | .stringDataProperties => ⟨_, append_ofList (append_ofList rfl rfl) rfl⟩
  | .intDataProperties => ⟨_, append_ofList (append_ofList rfl rfl) rfl⟩
  | .doubleDataProperties => ⟨_, append_ofList (append_ofList rfl rfl) rfl⟩
  | .subClasses => ⟨_, rfl⟩
  | .rootClasses =>
      ⟨_, append_ofList (append_ofList (append_ofList (append_ofList (append_ofList rfl rfl) rfl) rfl) rfl) rfl⟩
  | .superClasses => ⟨_, rfl⟩
  | .isSubClassOf => ⟨_, append_ofList rfl rfl⟩
  | .subObjectProperties => ⟨_, append_ofList rfl rfl⟩
  | .superObjectProperties => ⟨_, append_ofList rfl rfl⟩
  | .subDataProperties => ⟨_, append_ofList rfl rfl⟩
  | .superDataProperties => ⟨_, append_ofList rfl rfl⟩
  | .objectPropertyDomain => ⟨_, append_ofList rfl rfl⟩
  | .dataPropertyDomain => ⟨_, append_ofList rfl rfl⟩
  | .objectPropertyRange => ⟨_, append_ofList rfl rfl⟩
  | .dataPropertyRange => ⟨_, append_ofList rfl rfl⟩
  | .allIndividuals => ⟨_, append_ofList (append_ofList rfl rfl) rfl⟩
  | .individualEdges => ⟨_, append_ofList rfl rfl⟩
  | .individualNode => ⟨_, rfl⟩
  | .objectPropertyMembers => ⟨_, append_ofList rfl rfl⟩
  | .dataPropertyMembers => ⟨_, append_ofList (append_ofList rfl rfl) rfl⟩

theorem toList_template (query : CatalogQuery) : query.template.toList = (templateChars query).1 :=
  (congrArg String.toList (templateChars query).2).trans String.toList_ofList

theorem templates_formed (query : CatalogQuery) :
    isFormed ("KEY".toList :: (tokens {}).map (·.1.toList)) none (templateChars query).1 := by
  simp only [tokens, List.map_cons, List.map_nil, String.reduceToList]
  cases query <;> decide +kernel

theorem template_formed (schema : Schema) (query : CatalogQuery) :
    Formed ("KEY".toList :: (tokens schema).map (·.1.toList)) query.template.toList := by
  rw [toList_template]
  exact (isFormed_sound _ _).1 (templates_formed query)

/-- The names of the tokens do not depend on the schema, have no percent sign, and are not the name of
the token for the property. -/
theorem tokens_named (schema : Schema) :
    ∀ e ∈ tokens schema, '%' ∉ e.1.toList ∧ e.1 ≠ "KEY" := by
  have names : ∀ name ∈ (tokens {}).map (·.1), '%' ∉ name.toList ∧ name ≠ "KEY" := by
    decide +kernel
  intro e he
  exact names e.1 (List.mem_map_of_mem (f := (·.1)) he)

theorem percent_of_plain {s : String} (plain : isPlainIdentifier s = true) : '%' ∉ s.toList := by
  obtain ⟨c, rest, chars, start, more⟩ := isPlainIdentifier_iff.1 plain
  rw [chars]
  intro percent
  rcases List.mem_cons.1 percent with rfl | inside
  · exact absurd start (by decide)
  · exact absurd (more _ inside) (by decide)

theorem schemaName_closed (name : String) : Closed "KEY" (schemaName name).toList := by
  rw [toList_schemaName]
  split
  · next plain => exact .inl (percent_of_plain plain)
  · exact .inr ⟨'\x60' :: name.toList.flatMap backtickChar, '\x60', rfl, by decide⟩

theorem stringLiteral_closed (s : String) : Closed "KEY" (stringLiteral s).toList := by
  rw [toList_stringLiteral]
  exact .inr ⟨'\x27' :: s.toList.flatMap literalChar, '\x27', rfl, by decide⟩

theorem tokens_closed (schema : Schema) : ∀ e ∈ tokens schema, Closed "KEY" e.2.toList := by
  simp [tokens, schemaName_closed, stringLiteral_closed]

/-! ## The text of a query -/

theorem index_inj {a b : CatalogQuery} : a.index = b.index ↔ a = b := by
  have place : ∀ query : CatalogQuery, CatalogQuery.all[query.index]? = some query := by
    intro query
    cases query <;> rfl
  constructor
  · intro same
    exact Option.some.inj ((place a).symm.trans (same ▸ place b))
  · exact congrArg _

theorem compare_eq_iff {a b : CatalogQuery} : compare a b = .eq ↔ a = b :=
  Nat.compare_eq_eq.trans index_inj

instance : Std.TransOrd CatalogQuery where
  eq_swap {a b} := (Std.OrientedOrd.eq_swap : compare a.index b.index = _)
  isLE_trans {a _ c} hab hbc :=
    (Std.TransOrd.isLE_trans hab hbc : (compare a.index c.index).isLE)

/-- What a catalog with a text for each of some queries holds. -/
theorem find?_texts (text : CatalogQuery → String) (query : CatalogQuery)
    (queries : List CatalogQuery) (texts : List (CatalogQuery × String)) :
    Assoc.find? query ((queries.map fun q => (q, text q)).foldl (fun m e => Assoc.put e.1 e.2 m)
      texts) = if query ∈ queries then some (text query) else Assoc.find? query texts := by
  induction queries generalizing texts with
  | nil => rfl
  | cons q queries ih =>
      rw [List.map_cons, List.foldl_cons, ih, Assoc.find?_put]
      by_cases same : query = q
      · simp [same]
      · have other : compare query q ≠ .eq := fun h => same (compare_eq_iff.1 h)
        rw [if_neg other]
        simp only [List.mem_cons, same, false_or]

theorem mem_all (query : CatalogQuery) : query ∈ CatalogQuery.all := by
  cases query <;> decide

theorem get_ofSchema (schema : Schema) (query : CatalogQuery) :
    (ofSchema schema).get query = .ok (fill (tokens schema) query.template) := by
  have held := find?_texts (fun q => fill (tokens schema) q.template) query CatalogQuery.all []
  rw [if_pos (mem_all query)] at held
  simp only [get, ofSchema, ofTemplates, Assoc.ofList, List.map_map, Function.comp_def, held]

/-! ## The text of a query about a property -/

/-- What is put together for a query about a property. -/
theorem keyed_ofSchema (schema : Schema) (query : CatalogQuery) {property : Uri} {name : String}
    (accepted : uriName property = .ok name) :
    (ofSchema schema).keyed query property =
      .ok (fill [("KEY", name)] (fill (tokens schema) query.template)) := by
  rw [keyed, get_ofSchema, accepted]
  rfl

theorem key_named (name : String) : Named [("KEY", name)] := by
  simp [Named]

/-- The text of a query about a property is its template filled once, with the property's name and
with the names of the schema; but in the names of the schema the token of the property is filled too.
Where none of them has that token, they are put in as they are. -/
theorem keyed_in_one_pass (schema : Schema) (query : CatalogQuery) (property : Uri) (name : String)
    (accepted : uriName property = .ok name) :
    (ofSchema schema).keyed query property =
      .ok (String.ofList (replace
        (("KEY", name) :: (tokens schema).map fun e => (e.1, fill [("KEY", name)] e.2))
        query.template.toList)) ∧
    ((∀ e ∈ tokens schema, ¬ "%KEY%".toList <:+: e.2.toList) →
      (ofSchema schema).keyed query property =
        .ok (String.ofList (replace (("KEY", name) :: tokens schema) query.template.toList))) := by
  have named : Named (tokens schema) := fun e he => (tokens_named schema e he).1
  have joined := replace_replace name named (by decide)
    (fun e he => (tokens_named schema e he).2) (tokens_closed schema) (template_formed schema query)
  have once : (ofSchema schema).keyed query property =
      .ok (String.ofList (replace
        (("KEY", name) :: (tokens schema).map fun e => (e.1, fill [("KEY", name)] e.2))
        query.template.toList)) := by
    rw [keyed_ofSchema schema query accepted, fill_eq (key_named name), fill_eq named,
      String.toList_ofList, joined]
    simp only [fill_eq (key_named name)]
  refine ⟨once, fun free => ?_⟩
  have verbatim : (tokens schema).map (fun e => (e.1, fill [("KEY", name)] e.2)) =
      tokens schema := by
    refine (List.map_congr_left fun e he => ?_).trans (List.map_id _)
    have copied : replace [("KEY", name)] e.2.toList = e.2.toList := by
      refine replace_eq_self fun entry key => ?_
      have spelled : token "KEY".toList = "%KEY%".toList := by decide
      rw [List.mem_singleton.1 key, spelled]
      exact free e he
    rw [fill_eq (key_named name), copied, String.ofList_toList]
    rfl
  rw [once, verbatim]

theorem keyed_in_one_pass_percent :
    uriName "%CLASS%" = .ok "`%CLASS%`" ∧
    (ofSchema { resourceLabel := "100%" }).keyed .objectPropertyMembers "%CLASS%" =
      .ok (String.ofList (replace
        (("KEY", "`%CLASS%`") :: tokens { resourceLabel := "100%" })
        CatalogQuery.objectPropertyMembers.template.toList)) :=
  have accepted : uriName "%CLASS%" = .ok "`%CLASS%`" := if_neg (by decide)
  ⟨accepted, (keyed_in_one_pass { resourceLabel := "100%" } .objectPropertyMembers "%CLASS%"
    "`%CLASS%`" accepted).2 (by decide +kernel)⟩

/-- A label of the schema that has the token of the property is not put in as it is. -/
theorem keyed_rescans_label :
    uriName "http://ex.org/p" = .ok "`http://ex.org/p`" ∧
    (ofSchema { resourceLabel := "%KEY%" }).keyed .objectPropertyMembers "http://ex.org/p" ≠
      .ok (String.ofList (replace
        (("KEY", "`http://ex.org/p`") :: tokens { resourceLabel := "%KEY%" })
        CatalogQuery.objectPropertyMembers.template.toList)) := by
  have accepted : uriName "http://ex.org/p" = .ok "`http://ex.org/p`" := if_neg (by decide)
  have named : Named (("KEY", "`http://ex.org/p`") :: tokens { resourceLabel := "%KEY%" }) := by
    intro e he
    rcases List.mem_cons.1 he with rfl | he
    · decide
    · exact (tokens_named _ e he).1
  refine ⟨accepted, fun same => ?_⟩
  rw [keyed_ofSchema _ _ accepted, ← fill_eq named] at same
  exact absurd (Except.ok.inj same) (by decide +kernel)

end Ontograph.Catalog
