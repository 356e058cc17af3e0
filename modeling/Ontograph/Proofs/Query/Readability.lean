import Ontograph.Proofs.Query.Clause
import Ontograph.Proofs.Query.Quoting
import Ontograph.Proofs.Query.Spelling

/-!
# Queries read back

The text of a query says what the query is.  It is read from left to right: the lines of the bindings,
which begin like no line of a part, the lines of the parts, the conditions and the target.  Whatever
characters there are in the names and texts of an expression, each of them ends where its quotes do.

Main statements: `Binding.readable`, `Part.readable`, `Condition.readable` and, for compilers,
`Compiler.text_determines_query`.
-/

namespace Ontograph

open Query

/-! ## Lines -/

theorem toList_lines (lines : List String) (last : String) :
    ("\n".intercalate (lines ++ [last])).toList =
      lines.flatMap (fun line => line.toList ++ ['\n']) ++ last.toList := by
  induction lines with
  | nil => simp
  | cons line lines ih =>
      rw [List.cons_append, String.intercalate_cons_of_ne_nil (by simp), String.toList_append,
        String.toList_append, ih]
      simp

theorem toList_conjuncts (first : String) (rest : List String) :
    (" AND ".intercalate (first :: rest)).toList =
      first.toList ++ rest.flatMap (fun text => " AND ".toList ++ text.toList) := by
  induction rest generalizing first with
  | nil => simp
  | cons second rest ih =>
      rw [String.intercalate_cons_of_ne_nil (by simp), String.toList_append, String.toList_append, ih]
      simp

/-! ## Bindings -/

namespace Binding

/-- What stands between the class and the results in a call. -/
def options (schema : Schema) : String :=
  ", \x7bcatLabel: " ++ stringLiteral schema.classLabel
    ++ ", subCatRel: " ++ stringLiteral schema.subclassOfType
    ++ ", catNameProp: " ++ stringLiteral schema.identityKey ++ "\x7d) "

variable {schema : Schema} {procedure : String}

theorem toList_call (cls : Uri) (yields : String) :
    (call schema procedure cls yields).toList =
      "CALL ".toList ++ (procedure.toList ++ ("(".toList ++ ((stringLiteral cls).toList ++
        ((options schema).toList ++ yields.toList)))) := by
  unfold call options
  simp only [String.toList_append, List.append_assoc]

theorem call_inj {cls cls' : Uri} {yields yields' : String} {s t : List Char}
    (h : (call schema procedure cls yields).toList ++ s =
      (call schema procedure cls' yields').toList ++ t) :
    cls = cls' ∧ yields.toList ++ s = yields'.toList ++ t := by
  simp only [toList_call, List.append_assoc] at h
  have after := List.append_cancel_left (List.append_cancel_left (List.append_cancel_left h))
  obtain ⟨rfl, rest⟩ := textLiteral_readable cls cls' _ _ trivial trivial trivial trivial after
  exact ⟨rfl, List.append_cancel_left rest⟩

/-- The line of a set. -/
def setLine (schema : Schema) (procedure : String) (set : MemberSet) : List Char :=
  (collectLine schema procedure set).toList ++ ['\n']

theorem set_readable : Readable (fun set : MemberSet => Identifier set.var) (fun _ => True)
    (setLine schema procedure) := by
  rintro ⟨cls, var⟩ ⟨cls', var'⟩ s t hv hv' _ _ h
  simp only [setLine, collectLine, String.toList_append, List.append_assoc] at h
  obtain ⟨rfl, rest⟩ := call_inj (List.append_cancel_left h)
  have names := List.append_cancel_left (List.append_cancel_left rest)
  obtain ⟨rfl, ends⟩ := identifier_readable var var' _ _ hv hv' (stops_cons.2 (by decide))
    (stops_cons.2 (by decide)) names
  exact ⟨rfl, by simpa using ends⟩

/-- The lines of a binding. -/
def chars (schema : Schema) (procedure : String) (binding : Binding) : List Char :=
  (lines schema procedure binding).flatMap fun line => line.toList ++ ['\n']

theorem chars_members (cls : Uri) (var : String) (s : List Char) :
    chars schema procedure (members cls var) ++ s =
      (call schema procedure cls ("YIELD node AS " ++ var)).toList ++ '\n' :: s := by
  simp [chars, lines]

theorem chars_common (sets : List MemberSet) (var : String) (s : List Char) :
    chars schema procedure (common sets var) ++ s =
      sets.flatMap (setLine schema procedure) ++ ("UNWIND ".toList ++
        ((commonElements sets).toList ++ (" AS ".toList ++ (var.toList ++ '\n' :: s)))) := by
  unfold chars lines
  rw [List.flatMap_append, List.flatMap_map, List.flatMap_singleton]
  simp only [String.toList_append, List.append_assoc]
  rfl

/-- How a line of a set begins. -/
theorem setLine_eq (schema : Schema) (procedure : String) (set : MemberSet) (s : List Char) :
    ∃ rest, setLine schema procedure set ++ s =
      "CALL ".toList ++ ("\x7b CALL ".toList ++ (procedure.toList ++ ("(".toList ++ rest))) := by
  have shared : "CALL \x7b ".toList ++ "CALL ".toList = "CALL ".toList ++ "\x7b CALL ".toList := by
    decide
  refine ⟨(stringLiteral set.cls).toList ++ ((options schema).toList ++ ("YIELD node".toList ++
    (" RETURN collect(node) AS ".toList ++ (set.var.toList ++ (" \x7d".toList ++ '\n' :: s))))), ?_⟩
  simp only [setLine, collectLine, String.toList_append, toList_call, List.append_assoc,
    List.cons_append, List.nil_append]
  rw [← List.append_assoc, shared, List.append_assoc]

theorem sets_readable : Readable (fun sets : List MemberSet => ∀ set ∈ sets, Identifier set.var)
    (fun s => s.head? = some 'U') (fun sets => sets.flatMap (setLine schema procedure)) := by
  refine set_readable.flatMap _ (fun set s _ unwind => ?_) (fun _ _ _ => trivial) fun _ _ => trivial
  obtain ⟨rest, same⟩ := setLine_eq schema procedure set s
  rw [same] at unwind
  exact absurd (Option.some.inj unwind) (by decide)

/-- A call for members is not the first line of a binding to common members. -/
theorem members_ne_common {cls : Uri} {var var' : String} {sets : List MemberSet} {s t : List Char}
    (h : sets ≠ []) :
    chars schema procedure (members cls var) ++ s ≠ chars schema procedure (common sets var') ++ t := by
  cases sets with
  | nil => exact absurd rfl h
  | cons set sets =>
      intro same
      rw [chars_members, chars_common, List.flatMap_cons, List.append_assoc, toList_call] at same
      obtain ⟨rest, first⟩ := setLine_eq schema procedure set _
      rw [first, List.append_assoc, List.append_assoc] at same
      exact not_shifted '(' (by decide) (by decide) (List.append_cancel_left same)

theorem readable : Readable Spelled (fun _ => True) (chars schema procedure) := by
  intro a b s t ha hb _ _ h
  cases a with
  | members cls var =>
      cases b with
      | members cls' var' =>
          rw [chars_members, chars_members] at h
          obtain ⟨rfl, rest⟩ := call_inj h
          simp only [String.toList_append, List.append_assoc] at rest
          obtain ⟨rfl, ends⟩ := identifier_readable var var' _ _ ha hb (stops_cons.2 (by decide))
            (stops_cons.2 (by decide)) (List.append_cancel_left rest)
          exact ⟨rfl, (List.cons.inj ends).2⟩
      | common sets var' => exact absurd h (members_ne_common hb.1)
  | common sets var =>
      cases b with
      | members cls' var' => exact absurd h.symm (members_ne_common ha.1)
      | common sets' var' =>
          rw [chars_common, chars_common] at h
          obtain ⟨rfl, rest⟩ := sets_readable sets sets' _ _ ha.2.1 hb.2.1 rfl rfl h
          have names := List.append_cancel_left (List.append_cancel_left
            (List.append_cancel_left rest))
          obtain ⟨rfl, ends⟩ := identifier_readable var var' _ _ ha.2.2 hb.2.2
            (stops_cons.2 (by decide)) (stops_cons.2 (by decide)) names
          exact ⟨rfl, (List.cons.inj ends).2⟩

end Binding

/-! ## Parts -/

namespace Part

variable {schema : Schema}

/-- The variable that a part begins with. -/
def source : Part → String
  | node var _ => var
  | edge source _ _ => source
  | valueEdge source _ _ _ => source

/-- A label of a node. -/
def labelChars (label : Uri) : List Char :=
  ':' :: quotedChars label

/-- An edge up to the variable of its target. -/
def linkChars (relation : Uri) (target : String) : List Char :=
  ')' :: '-' :: ("[:".toList ++ (quotedChars relation ++ ("]->(".toList ++ target.toList)))

/-- What follows the first variable of a part. -/
def tail (schema : Schema) : Part → List Char
  | node _ labels => labels.flatMap labelChars ++ [')']
  | edge _ relation target => linkChars relation target ++ [')']
  | valueEdge _ relation target individual =>
      linkChars relation target ++ (' ' :: '\x7b' :: ((schemaName schema.identityKey).toList ++
        (": ".toList ++ ((stringLiteral individual).toList ++ "\x7d)".toList))))

/-- The characters of a part. -/
def chars (schema : Schema) (part : Part) : List Char :=
  '(' :: (part.source.toList ++ part.tail schema)

theorem exists_text (schema : Schema) {part : Part} (h : part.Printable) :
    ∃ text, part.text schema = .ok text ∧ text.toList = part.chars schema := by
  cases part with
  | node var labels =>
      have names : labels.mapM uriName =
          .ok (labels.map fun label => String.ofList (quotedChars label)) :=
        mapM_eq_ok_map fun label hl => uriName_eq (h label hl)
      have joined : (String.join ((labels.map fun label => String.ofList (quotedChars label)).map
          (":" ++ ·))).toList = labels.flatMap labelChars := by
        rw [String.toList_join, List.flatMap_map, List.flatMap_map]
        refine List.flatMap_congr fun label _ => ?_
        rw [String.toList_append, String.toList_ofList, String.toList_ofList]
        rfl
      refine ⟨_, by rw [text, names]; rfl, ?_⟩
      simp only [String.toList_append, joined, chars, source, tail, String.reduceToList,
        List.cons_append, List.nil_append, List.append_assoc]
  | edge source relation target =>
      obtain ⟨name, named, same⟩ := exists_uriName h
      refine ⟨_, by rw [text, named]; rfl, ?_⟩
      simp only [String.toList_append, same, chars, Part.source, tail, linkChars, String.reduceToList,
        List.cons_append, List.nil_append, List.append_assoc]
  | valueEdge source relation target individual =>
      obtain ⟨name, named, same⟩ := exists_uriName h
      refine ⟨_, by rw [text, named]; rfl, ?_⟩
      simp only [String.toList_append, same, chars, Part.source, tail, linkChars, String.reduceToList,
        List.cons_append, List.nil_append, List.append_assoc]

/-- The rest of a part ends the name of its variable. -/
theorem stops_tail (part : Part) (s : List Char) : Stops isIdentifierRest (part.tail schema ++ s) := by
  cases part with
  | node var labels =>
      cases labels with
      | nil => exact stops_cons.2 (by decide)
      | cons label labels => exact stops_cons.2 (by decide)
  | edge source relation target => exact stops_cons.2 (by decide)
  | valueEdge source relation target individual => exact stops_cons.2 (by decide)

theorem labels_readable : Readable (fun labels : List Uri => ∀ label ∈ labels, Quotable label)
    (fun s => s.head? = some ')') (fun labels => labels.flatMap labelChars) := by
  have label : Readable Quotable (fun _ => True) labelChars := by
    intro a b s t ha hb hs ht h
    exact quoted_readable a b s t ha hb hs ht (List.cons.inj h).2
  refine label.flatMap _ (fun a s _ close => ?_) (fun _ _ _ => trivial) fun _ _ => trivial
  exact absurd (Option.some.inj close) (by decide)

/-- A node that ends its line is not the start of an edge. -/
theorem node_ne_link {labels : List Uri} {relation : Uri} {target : String} {s t : List Char}
    (hs : s.head? = some '\n') :
    labels.flatMap labelChars ++ ([')'] ++ s) ≠ linkChars relation target ++ t := by
  intro same
  cases labels with
  | nil =>
      obtain ⟨rest, after⟩ : ∃ rest, s = '-' :: rest := ⟨_, (List.cons.inj same).2⟩
      rw [after] at hs
      exact absurd (Option.some.inj hs) (by decide)
  | cons label labels => exact absurd (List.cons.inj same).1 (by decide)

/-- The relation and the target of an edge, up to what stands after them. -/
theorem link_inj {relation relation' : Uri} {target target' : String} {s t : List Char}
    (hr : Quotable relation) (hr' : Quotable relation') (hv : Identifier target)
    (hv' : Identifier target') (hs : Stops isIdentifierRest s) (ht : Stops isIdentifierRest t)
    (h : linkChars relation target ++ s = linkChars relation' target' ++ t) :
    relation = relation' ∧ target = target' ∧ s = t := by
  simp only [linkChars, List.cons_append, List.append_assoc] at h
  have names := List.append_cancel_left (List.cons.inj (List.cons.inj h).2).2
  obtain ⟨rfl, rest⟩ := quoted_readable relation relation' _ _ hr hr' trivial trivial names
  obtain ⟨rfl, ends⟩ := identifier_readable target target' s t hv hv' hs ht
    (List.append_cancel_left rest)
  exact ⟨rfl, rfl, ends⟩

/-- The rests of two parts are told apart. -/
theorem tail_inj {a b : Part} {s t : List Char} (ha : a.Spelled) (hb : b.Spelled)
    (hs : s.head? = some '\n') (ht : t.head? = some '\n') (sources : a.source = b.source)
    (h : a.tail schema ++ s = b.tail schema ++ t) : a = b ∧ s = t := by
  have close : Stops isIdentifierRest (')' :: s) := stops_cons.2 (by decide)
  have close' : Stops isIdentifierRest (')' :: t) := stops_cons.2 (by decide)
  have blank : ∀ text, Stops isIdentifierRest (' ' :: text) := fun text => stops_cons.2 (by decide)
  have second : ∀ {source target : String}, target ∈ [source, target] := by simp
  cases a with
  | node var labels =>
      cases b with
      | node var' labels' =>
          simp only [tail, List.append_assoc] at h
          obtain ⟨rfl, rest⟩ := labels_readable labels labels' _ _ ha.2 hb.2 rfl rfl h
          obtain rfl : var = var' := sources
          exact ⟨rfl, (List.cons.inj rest).2⟩
      | edge source relation target =>
          simp only [tail, List.append_assoc] at h
          exact absurd h (node_ne_link hs)
      | valueEdge source relation target individual =>
          simp only [tail, List.append_assoc] at h
          exact absurd h (node_ne_link hs)
  | edge source relation target =>
      cases b with
      | node var' labels' =>
          simp only [tail, List.append_assoc] at h
          exact absurd h.symm (node_ne_link ht)
      | edge source' relation' target' =>
          simp only [tail, List.append_assoc] at h
          obtain ⟨rfl, rfl, rest⟩ := link_inj ha.2 hb.2 (ha.1 _ second) (hb.1 _ second) close close' h
          obtain rfl : source = source' := sources
          exact ⟨rfl, (List.cons.inj rest).2⟩
      | valueEdge source' relation' target' individual' =>
          simp only [tail, List.append_assoc] at h
          obtain ⟨-, -, rest⟩ := link_inj ha.2 hb.2 (ha.1 _ second) (hb.1 _ second) close (blank _) h
          exact absurd (List.cons.inj rest).1 (by decide)
  | valueEdge source relation target individual =>
      cases b with
      | node var' labels' =>
          simp only [tail, List.append_assoc] at h
          exact absurd h.symm (node_ne_link ht)
      | edge source' relation' target' =>
          simp only [tail, List.append_assoc] at h
          obtain ⟨-, -, rest⟩ := link_inj ha.2 hb.2 (ha.1 _ second) (hb.1 _ second) (blank _) close' h
          exact absurd (List.cons.inj rest).1 (by decide)
      | valueEdge source' relation' target' individual' =>
          simp only [tail, List.append_assoc, List.cons_append] at h
          obtain ⟨rfl, rfl, rest⟩ := link_inj ha.2 hb.2 (ha.1 _ second) (hb.1 _ second) (blank _)
            (blank _) h
          obtain rfl : source = source' := sources
          have keyed := List.append_cancel_left (List.append_cancel_left
            (List.cons.inj (List.cons.inj rest).2).2)
          obtain ⟨rfl, ends⟩ := textLiteral_readable individual individual' _ _ trivial trivial
            trivial trivial keyed
          exact ⟨rfl, List.append_cancel_left ends⟩

theorem readable : Readable Spelled (fun s => s.head? = some '\n') (chars schema) := by
  intro a b s t ha hb hs ht h
  have sourceA : Identifier a.source := ha.1 _ (by cases a <;> exact List.mem_cons_self)
  have sourceB : Identifier b.source := hb.1 _ (by cases b <;> exact List.mem_cons_self)
  simp only [chars, List.append_assoc, List.cons_append] at h
  obtain ⟨sources, tails⟩ := identifier_readable a.source b.source _ _ sourceA sourceB
    (a.stops_tail s) (b.stops_tail t) (List.cons.inj h).2
  exact tail_inj ha hb hs ht sources tails

end Part

/-! ## Conditions -/

namespace Condition

/-- The characters of a condition. -/
def chars : Condition → List Char
  | hasAttribute var key => var.toList ++ ('.' :: (quotedChars key ++ (' ' :: 'I' :: "S NOT NULL".toList)))
  | attributeEquals var key value =>
      var.toList ++ ('.' :: (quotedChars key ++ (' ' :: '=' :: ' ' :: literalChars value)))
  | unsatisfiable => ['f', 'a', 'l', 's', 'e']

theorem exists_text {condition : Condition} (h : condition.Printable) :
    ∃ text, condition.text = .ok text ∧ text.toList = condition.chars := by
  cases condition with
  | hasAttribute var key =>
      obtain ⟨name, named, same⟩ := exists_uriName h
      refine ⟨_, by rw [Condition.text, named]; rfl, ?_⟩
      simp only [String.toList_append, same, chars, String.reduceToList, List.cons_append,
        List.nil_append, List.append_assoc]
  | attributeEquals var key value =>
      obtain ⟨name, named, same⟩ := exists_uriName h.1
      obtain ⟨text, written, equal⟩ := exists_literal h.2
      refine ⟨_, by rw [Condition.text, named, written]; rfl, ?_⟩
      simp only [String.toList_append, same, equal, chars, String.reduceToList, List.cons_append,
        List.nil_append, List.append_assoc]
  | unsatisfiable => exact ⟨_, rfl, rfl⟩

/-- The attribute that a condition is about, up to what stands after it. -/
theorem attribute_inj {var var' : String} {key key' : Uri} {s t : List Char} (hv : Identifier var)
    (hv' : Identifier var') (hk : Quotable key) (hk' : Quotable key')
    (h : var.toList ++ ('.' :: (quotedChars key ++ s)) =
      var'.toList ++ ('.' :: (quotedChars key' ++ t))) : var = var' ∧ key = key' ∧ s = t := by
  obtain ⟨rfl, rest⟩ := identifier_readable var var' _ _ hv hv' (stops_cons.2 (by decide))
    (stops_cons.2 (by decide)) h
  obtain ⟨rfl, ends⟩ := quoted_readable key key' s t hk hk' trivial trivial (List.cons.inj rest).2
  exact ⟨rfl, rfl, ends⟩

/-- The word for what is not met is not the variable of an attribute. -/
theorem attribute_ne_false {var : String} {s t : List Char} (hv : Identifier var) (ht : Ends t) :
    var.toList ++ '.' :: s ≠ ['f', 'a', 'l', 's', 'e'] ++ t := by
  intro same
  have word : Identifier (String.ofList ['f', 'a', 'l', 's', 'e']) := identifier_ofList rfl
  obtain ⟨-, point⟩ := identifier_readable var _ _ t hv word (stops_cons.2 (by decide))
    (ht.stops rfl rfl) same
  rw [← point] at ht
  exact ht.head?_ne (by decide) (by decide) rfl

theorem readable : Readable Spelled Ends chars := by
  intro a b s t ha hb hs ht h
  have only : ∀ var : String, var ∈ [var] := fun var => List.mem_singleton.2 rfl
  cases a with
  | hasAttribute var key =>
      cases b with
      | hasAttribute var' key' =>
          simp only [chars, List.append_assoc, List.cons_append] at h
          obtain ⟨rfl, rfl, rest⟩ := attribute_inj (ha.1 _ (only _)) (hb.1 _ (only _)) ha.2 hb.2 h
          exact ⟨rfl, List.append_cancel_left (List.cons.inj (List.cons.inj rest).2).2⟩
      | attributeEquals var' key' value' =>
          simp only [chars, List.append_assoc, List.cons_append] at h
          obtain ⟨-, -, rest⟩ := attribute_inj (ha.1 _ (only _)) (hb.1 _ (only _)) ha.2 hb.2.1 h
          exact absurd (List.cons.inj (List.cons.inj rest).2).1 (by decide)
      | unsatisfiable =>
          simp only [chars, List.append_assoc, List.cons_append] at h
          exact absurd h (attribute_ne_false (ha.1 _ (only _)) ht)
  | attributeEquals var key value =>
      cases b with
      | hasAttribute var' key' =>
          simp only [chars, List.append_assoc, List.cons_append] at h
          obtain ⟨-, -, rest⟩ := attribute_inj (ha.1 _ (only _)) (hb.1 _ (only _)) ha.2.1 hb.2 h
          exact absurd (List.cons.inj (List.cons.inj rest).2).1 (by decide)
      | attributeEquals var' key' value' =>
          simp only [chars, List.append_assoc, List.cons_append] at h
          obtain ⟨rfl, rfl, rest⟩ := attribute_inj (ha.1 _ (only _)) (hb.1 _ (only _)) ha.2.1 hb.2.1 h
          obtain ⟨rfl, ends⟩ := literal_readable value value' s t ha.2.2 hb.2.2 hs ht
            (List.cons.inj (List.cons.inj (List.cons.inj rest).2).2).2
          exact ⟨rfl, ends⟩
      | unsatisfiable =>
          simp only [chars, List.append_assoc, List.cons_append] at h
          exact absurd h (attribute_ne_false (ha.1 _ (only _)) ht)
  | unsatisfiable =>
      cases b with
      | hasAttribute var' key' =>
          simp only [chars, List.append_assoc, List.cons_append] at h
          exact absurd h.symm (attribute_ne_false (hb.1 _ (only _)) hs)
      | attributeEquals var' key' value' =>
          simp only [chars, List.append_assoc, List.cons_append] at h
          exact absurd h.symm (attribute_ne_false (hb.1 _ (only _)) hs)
      | unsatisfiable => exact ⟨rfl, List.append_cancel_left h⟩

/-- The line of all conditions, which is left out if there are none. -/
def line : List Condition → List Char
  | [] => []
  | first :: rest =>
      'W' :: ("HERE ".toList ++ (first.chars ++ (rest.flatMap (fun condition =>
        ' ' :: ("AND ".toList ++ condition.chars)) ++ ['\n'])))

theorem line_readable : Readable (fun conditions : List Condition => ∀ condition ∈ conditions,
    condition.Spelled) (fun s => s.head? = some 'R') line := by
  have conjunct : Readable Spelled Ends
      (fun condition : Condition => ' ' :: ("AND ".toList ++ condition.chars)) := by
    intro a b s t ha hb hs ht h
    simp only [List.cons_append, List.append_assoc] at h
    exact readable a b s t ha hb hs ht (List.append_cancel_left (List.cons.inj h).2)
  have conjuncts := conjunct.flatMap (fun s => s.head? = some '\n')
    (fun a s _ newline => absurd (Option.some.inj newline) (by decide)) (fun _ _ _ => .inl rfl)
    fun _ => .inr
  have ends : ∀ (rest : List Condition) (s : List Char), Ends (rest.flatMap (fun condition =>
      ' ' :: ("AND ".toList ++ condition.chars)) ++ '\n' :: s) := by
    intro rest s
    cases rest with
    | nil => exact .inr rfl
    | cons condition rest => exact .inl rfl
  intro l m s t hl hm hs ht h
  cases l with
  | nil =>
      cases m with
      | nil => exact ⟨rfl, h⟩
      | cons condition m =>
          have more : s = line (condition :: m) ++ t := h
          rw [more] at hs
          exact absurd (Option.some.inj hs) (by decide)
  | cons first l =>
      cases m with
      | nil =>
          have more : line (first :: l) ++ s = t := h
          rw [← more] at ht
          exact absurd (Option.some.inj ht) (by decide)
      | cons first' m =>
          obtain ⟨hf, hl⟩ := List.forall_mem_cons.1 hl
          obtain ⟨hf', hm'⟩ := List.forall_mem_cons.1 hm
          simp only [line, List.cons_append, List.append_assoc, List.nil_append] at h
          obtain ⟨rfl, rest⟩ := readable first first' _ _ hf hf' (ends l s) (ends m t)
            (List.append_cancel_left (List.cons.inj h).2)
          obtain ⟨rfl, after⟩ := conjuncts l m _ _ hl hm' rfl rfl rest
          exact ⟨rfl, (List.cons.inj after).2⟩

end Condition

/-! ## Patterns -/

/-- Attempts that all succeed give texts with the characters that each of them has. -/
theorem exists_texts {α : Type} {f : α → Except Failure String} {chars : α → List Char} {l : List α}
    (h : ∀ a ∈ l, ∃ text, f a = .ok text ∧ text.toList = chars a) :
    ∃ texts, l.mapM f = .ok texts ∧ texts.map String.toList = l.map chars := by
  obtain ⟨texts, written⟩ := exists_forall₂.2 h
  have same := (written.imp fun _ _ => And.right).flip
  refine ⟨texts, mapM_eq_ok.2 (written.imp fun _ _ => And.left), ?_⟩
  rwa [← List.forall₂_eq_eq_eq, List.forall₂_map_left_iff, List.forall₂_map_right_iff]

/-- What is made of texts is made of their characters. -/
theorem flatMap_texts {α : Type} {chars : α → List Char} {texts : List String} {l : List α}
    (h : texts.map String.toList = l.map chars) (f : List Char → List Char) :
    texts.flatMap (fun text => f text.toList) = l.flatMap fun a => f (chars a) := by
  have both := congrArg (List.flatMap f) h
  rwa [List.flatMap_map, List.flatMap_map] at both

namespace Pattern

variable {schema : Schema} {procedure : String}

/-- The line of a part. -/
def partLine (schema : Schema) (part : Part) : List Char :=
  'M' :: ("ATCH ".toList ++ (part.chars schema ++ ['\n']))

/-- The characters of a pattern. -/
def chars (schema : Schema) (procedure : String) (q : Pattern) : List Char :=
  q.bindings.flatMap (Binding.chars schema procedure) ++ (q.parts.flatMap (partLine schema) ++
    (Condition.line q.conditions ++ ('R' :: ("ETURN DISTINCT ".toList ++ q.target.toList))))

theorem lines_parts {parts : List Part} {texts : List String}
    (h : texts.map String.toList = parts.map (Part.chars schema)) :
    (texts.map ("MATCH " ++ ·)).flatMap (fun line => line.toList ++ ['\n']) =
      parts.flatMap (partLine schema) := by
  rw [List.flatMap_map]
  refine Eq.trans (List.flatMap_congr fun text _ => ?_)
    (flatMap_texts h fun text => 'M' :: ("ATCH ".toList ++ (text ++ ['\n'])))
  rw [String.toList_append, List.append_assoc]
  rfl

theorem lines_conditions {conditions : List Condition} {texts : List String}
    (h : texts.map String.toList = conditions.map Condition.chars) :
    (if texts.isEmpty then [] else ["WHERE " ++ " AND ".intercalate texts]).flatMap
      (fun line => line.toList ++ ['\n']) = Condition.line conditions := by
  cases conditions with
  | nil =>
      obtain rfl := List.map_eq_nil_iff.1 h
      rfl
  | cons first rest =>
      cases texts with
      | nil => cases h
      | cons text texts =>
          obtain ⟨one, others⟩ := List.cons.inj h
          have conjuncts : texts.flatMap (fun text => " AND ".toList ++ text.toList) =
              rest.flatMap fun condition => ' ' :: ("AND ".toList ++ condition.chars) :=
            flatMap_texts others fun text => ' ' :: ("AND ".toList ++ text)
          show ("WHERE " ++ " AND ".intercalate (text :: texts)).toList ++ ['\n'] ++ [] = _
          rw [String.toList_append, toList_conjuncts, one, conjuncts, List.append_nil,
            List.append_assoc, List.append_assoc]
          rfl

theorem exists_text (schema : Schema) (procedure : String) {q : Pattern} (h : q.Spelled) :
    ∃ text, q.render schema procedure = .ok text ∧ text.toList = q.chars schema procedure := by
  obtain ⟨parts, partsWritten, partsSame⟩ := exists_texts fun part hp =>
    Part.exists_text schema (h.parts part hp).2
  obtain ⟨conditions, conditionsWritten, conditionsSame⟩ := exists_texts fun condition hc =>
    Condition.exists_text (h.conditions condition hc).2
  refine ⟨_, by rw [render, partsWritten, conditionsWritten]; rfl, ?_⟩
  rw [toList_lines, List.flatMap_append, List.flatMap_append, lines_parts partsSame,
    lines_conditions conditionsSame, List.flatMap_assoc, chars, String.toList_append]
  simp only [List.append_assoc]
  rfl

theorem bindings_readable : Readable (fun bindings : List Binding => ∀ binding ∈ bindings,
    binding.Spelled) (fun s => s.head? = some 'M')
    (fun bindings => bindings.flatMap (Binding.chars schema procedure)) := by
  refine Binding.readable.flatMap _ (fun a s ha first => ?_) (fun _ _ _ => trivial) fun _ _ => trivial
  cases a with
  | members cls var =>
      rw [Binding.chars_members, Binding.toList_call] at first
      exact absurd (Option.some.inj first) (by decide)
  | common sets var =>
      cases sets with
      | nil => exact absurd rfl ha.1
      | cons set sets =>
          rw [Binding.chars_common, List.flatMap_cons, List.append_assoc] at first
          obtain ⟨rest, same⟩ := Binding.setLine_eq schema procedure set _
          rw [same] at first
          exact absurd (Option.some.inj first) (by decide)

theorem parts_readable : Readable (fun parts : List Part => ∀ part ∈ parts, part.Spelled)
    (fun s => s.head? = some 'W' ∨ s.head? = some 'R')
    (fun parts => parts.flatMap (partLine schema)) := by
  have line : Readable Part.Spelled (fun _ => True) (partLine schema) := by
    intro a b s t ha hb _ _ h
    simp only [partLine, List.cons_append, List.append_assoc, List.nil_append] at h
    obtain ⟨rfl, rest⟩ := Part.readable a b _ _ ha hb rfl rfl
      (List.append_cancel_left (List.cons.inj h).2)
    exact ⟨rfl, (List.cons.inj rest).2⟩
  refine line.flatMap _ (fun a s _ first => ?_) (fun _ _ _ => trivial) fun _ _ => trivial
  rcases first with first | first
  · exact absurd (Option.some.inj first) (by decide)
  · exact absurd (Option.some.inj first) (by decide)

/-- Patterns with the same characters say the same. -/
theorem eq_of_chars {q q' : Pattern} (hq : q.Spelled) (hq' : q'.Spelled)
    (h : q.chars schema procedure = q'.chars schema procedure) :
    q.bindings = q'.bindings ∧ q.parts = q'.parts ∧ q.conditions = q'.conditions ∧
      q.target = q'.target := by
  have partFirst : ∀ {parts : List Part} {s : List Char}, parts ≠ [] →
      (parts.flatMap (partLine schema) ++ s).head? = some 'M' := by
    intro parts s some
    cases parts with
    | nil => exact absurd rfl some
    | cons part parts => rfl
  have ends : ∀ (conditions : List Condition) (s : List Char),
      (Condition.line conditions ++ 'R' :: s).head? = some 'W' ∨
        (Condition.line conditions ++ 'R' :: s).head? = some 'R' := by
    intro conditions s
    cases conditions with
    | nil => exact .inr rfl
    | cons condition conditions => exact .inl rfl
  obtain ⟨bindings, rest⟩ := bindings_readable q.bindings q'.bindings _ _ hq.bindings hq'.bindings
    (partFirst hq.nonempty) (partFirst hq'.nonempty) h
  obtain ⟨parts, rest⟩ := parts_readable q.parts q'.parts _ _ hq.parts hq'.parts (ends _ _)
    (ends _ _) rest
  obtain ⟨conditions, rest⟩ := Condition.line_readable q.conditions q'.conditions _ _ hq.conditions
    hq'.conditions rfl rfl rest
  exact ⟨bindings, parts, conditions,
    String.toList_inj.1 (List.append_cancel_left (List.cons.inj rest).2)⟩

end Pattern

namespace Compiler

/-- The text of a query determines its bindings, parts, conditions and target. -/
theorem text_determines_query (compiler : Compiler) (e e' : ClassExpression)
    (target target' : Option String) (q q' : Pattern) (h : compiler.pattern e target = .ok q)
    (h' : compiler.pattern e' target' = .ok q')
    (same : compiler.text e target = compiler.text e' target') :
    q.bindings = q'.bindings ∧ q.parts = q'.parts ∧ q.conditions = q'.conditions ∧
      q.target = q'.target := by
  have spelled := Pattern.spelled_of_toPattern h
  have spelled' := Pattern.spelled_of_toPattern h'
  obtain ⟨text, rendered, chars⟩ := Pattern.exists_text compiler.schema compiler.procedure spelled
  obtain ⟨text', rendered', chars'⟩ :=
    Pattern.exists_text compiler.schema compiler.procedure spelled'
  rw [Compiler.text, Compiler.text, h, h', ok_bind, ok_bind, rendered, rendered'] at same
  obtain rfl := Except.ok.inj same
  exact Pattern.eq_of_chars spelled spelled' (chars.symm.trans chars')

/-- Names and a text that look like the rest of a query. -/
def quoted : ClassExpression :=
  .intersection [.named "A) RETURN n0 //", .named "B\n'",
    .dataHas "k" (.string "\\' AND false\nRETURN DISTINCT n0")]

/-- The same operands in another order and nested. -/
def quotedNested : ClassExpression :=
  .intersection [.dataHas "k" (.string "\\' AND false\nRETURN DISTINCT n0"),
    .intersection [.named "B\n'", .named "A) RETURN n0 //"]]

theorem text_determines_query_quoted :
    ∃ q q', (⟨{}, .direct, "closure"⟩ : Compiler).pattern quoted none = .ok q ∧
      (⟨{}, .direct, "closure"⟩ : Compiler).pattern quotedNested (some "n0") = .ok q' ∧
      (⟨{}, .direct, "closure"⟩ : Compiler).text quoted none =
        (⟨{}, .direct, "closure"⟩ : Compiler).text quotedNested (some "n0") ∧
      q.bindings = q'.bindings ∧ q.parts = q'.parts ∧ q.conditions = q'.conditions ∧
      q.target = q'.target := by
  let compiler : Compiler := ⟨{}, .direct, "closure"⟩
  have patterns : compiler.pattern quoted none = compiler.pattern quotedNested (some "n0") := rfl
  have texts : compiler.text quoted none = compiler.text quotedNested (some "n0") := by
    rw [Compiler.text, Compiler.text, patterns]
  exact ⟨_, _, rfl, rfl, texts,
    text_determines_query compiler quoted quotedNested none (some "n0") _ _ rfl rfl texts⟩

end Compiler

end Ontograph
