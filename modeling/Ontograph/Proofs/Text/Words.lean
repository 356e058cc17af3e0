/-!
# Where a text ends

Texts that are written one after the other can be told apart if each of them shows where it ends: a word
of characters of some class ends at the first character outside the class, and a list of texts ends
where no further one begins.

Main statements: `eq_of_word`, `not_shifted` and, for the texts of values (`Readable`),
`Readable.flatMap`.
-/

namespace Ontograph

/-! ## Words -/

/-- A text that does not begin with a character of a class. -/
def Stops (p : Char → Bool) (text : List Char) : Prop :=
  ∀ c ∈ text.head?, p c = false

@[simp] theorem stops_nil (p : Char → Bool) : Stops p [] := by
  simp [Stops]

@[simp] theorem stops_cons {p : Char → Bool} {c : Char} {text : List Char} :
    Stops p (c :: text) ↔ p c = false := by
  simp [Stops]

theorem takeWhile_word {p : Char → Bool} {word rest : List Char} (all : ∀ c ∈ word, p c)
    (ends : Stops p rest) : (word ++ rest).takeWhile p = word := by
  have none : rest.takeWhile p = [] := by
    cases rest with
    | nil => rfl
    | cons c rest => simp [stops_cons.1 ends]
  rw [List.takeWhile_append_of_pos all, none, List.append_nil]

theorem dropWhile_word {p : Char → Bool} {word rest : List Char} (all : ∀ c ∈ word, p c)
    (ends : Stops p rest) : (word ++ rest).dropWhile p = rest := by
  have split := List.takeWhile_append_dropWhile (p := p) (l := word ++ rest)
  rw [takeWhile_word all ends] at split
  exact List.append_cancel_left split

/-- A word of characters of a class ends where the class does. -/
theorem eq_of_word {p : Char → Bool} {v w s t : List Char} (hv : ∀ c ∈ v, p c) (hw : ∀ c ∈ w, p c)
    (hs : Stops p s) (ht : Stops p t) (h : v ++ s = w ++ t) : v = w ∧ s = t := by
  have words := takeWhile_word hv hs
  have rests := dropWhile_word hv hs
  rw [h, takeWhile_word hw ht] at words
  rw [h, dropWhile_word hw ht] at rests
  exact ⟨words.symm, rests.symm⟩

/-- Where a character stands last is determined. -/
theorem eq_of_append_cons_eq {l m s t : List Char} {c : Char} (h : l ++ c :: s = m ++ c :: t)
    (hs : c ∉ s) (ht : c ∉ t) : l = m ∧ s = t := by
  rcases List.append_eq_append_iff.1 h with ⟨as, rfl, rest⟩ | ⟨as, rfl, rest⟩
  · cases as with
    | nil =>
        cases rest
        exact ⟨(List.append_nil l).symm, rfl⟩
    | cons a as =>
        obtain ⟨rfl, rfl⟩ := List.cons.inj rest
        exact absurd (List.mem_append_right as List.mem_cons_self) hs
  · cases as with
    | nil =>
        cases rest
        exact ⟨List.append_nil m, rfl⟩
    | cons a as =>
        obtain ⟨rfl, rfl⟩ := List.cons.inj rest
        exact absurd (List.mem_append_right as List.mem_cons_self) ht

/-- A text begins with characters other than `c`, up to the first `c` in it. -/
theorem exists_start (c : Char) (word : List Char) : ∃ start : List Char, c ∉ start ∧
    ∀ rest, ∃ after, word ++ c :: rest = start ++ c :: after := by
  induction word with
  | nil => exact ⟨[], List.not_mem_nil, fun rest => ⟨rest, rfl⟩⟩
  | cons d word ih =>
      by_cases first : d = c
      · subst first
        exact ⟨[], List.not_mem_nil, fun rest => ⟨_, rfl⟩⟩
      · obtain ⟨start, free, split⟩ := ih
        refine ⟨d :: start, by simp [Ne.symm first, free], fun rest => ?_⟩
        obtain ⟨after, same⟩ := split rest
        exact ⟨after, congrArg (d :: ·) same⟩

/-- A text with a `c` in it is not the same text some way further on. -/
theorem not_shifted (c : Char) {shift word s t : List Char} (long : shift ≠ []) (plain : c ∉ shift) :
    word ++ c :: s ≠ shift ++ (word ++ c :: t) := by
  -- Both sides reach their first `c`, which comes later on the right.
  obtain ⟨start, free, split⟩ := exists_start c word
  obtain ⟨s', hs⟩ := split s
  obtain ⟨t', ht⟩ := split t
  intro same
  rw [hs, ht, ← List.append_assoc] at same
  have inside : ∀ {l : List Char}, c ∉ l → ∀ d ∈ l, (d != c) = true := by
    intro l none d hd
    rw [bne_iff_ne]
    rintro rfl
    exact none hd
  have stop : ∀ rest, Stops (· != c) (c :: rest) := fun rest => stops_cons.2 (by simp)
  have starts := (eq_of_word (inside free) (inside (by simp [plain, free])) (stop s') (stop t') same).1
  have length := congrArg List.length starts
  rw [List.length_append] at length
  have positive := List.length_pos_iff.2 long
  omega

/-! ## Texts of values -/

/-- The texts of the values that meet `P` show what the value is and where the text ends, if a text
that meets `Follow` comes after. -/
def Readable {α : Type} (P : α → Prop) (Follow : List Char → Prop) (text : α → List Char) : Prop :=
  ∀ a b s t, P a → P b → Follow s → Follow t → text a ++ s = text b ++ t → a = b ∧ s = t

/-- Texts are readable if there is a reader for them. -/
theorem Readable.of_read {α : Type} {P : α → Prop} {Follow : List Char → Prop} {text : α → List Char}
    {read : List Char → Option (α × List Char)}
    (h : ∀ a s, P a → Follow s → read (text a ++ s) = some (a, s)) : Readable P Follow text := by
  intro a b s t ha hb hs ht same
  have found := h a s ha hs
  rw [same, h b t hb ht] at found
  obtain ⟨rfl, rfl⟩ := Prod.mk.inj (Option.some.inj found)
  exact ⟨rfl, rfl⟩

/-- A list of values is readable if the values are and what comes after does not begin with one more
value. -/
theorem Readable.flatMap {α : Type} {P : α → Prop} {Follow : List Char → Prop}
    {text : α → List Char} (readable : Readable P Follow text) (Stop : List Char → Prop)
    (apart : ∀ a s, P a → ¬ Stop (text a ++ s)) (goesOn : ∀ a s, P a → Follow (text a ++ s))
    (ends : ∀ s, Stop s → Follow s) :
    Readable (fun l : List α => ∀ a ∈ l, P a) Stop (fun l => l.flatMap text) := by
  have follow : ∀ (l : List α) (s : List Char), (∀ a ∈ l, P a) → Stop s →
      Follow (l.flatMap text ++ s) := by
    intro l s hl hs
    cases l with
    | nil => exact ends s hs
    | cons a l =>
        rw [List.flatMap_cons, List.append_assoc]
        exact goesOn a _ (hl a List.mem_cons_self)
  intro l
  induction l with
  | nil =>
      intro m s t _ hm hs _ h
      cases m with
      | nil => exact ⟨rfl, h⟩
      | cons b m =>
          have more : s = text b ++ (m.flatMap text ++ t) := by
            simpa only [List.flatMap_nil, List.nil_append, List.flatMap_cons, List.append_assoc] using h
          exact absurd (more ▸ hs) (apart b _ (hm b List.mem_cons_self))
  | cons a l ih =>
      intro m s t hl hm hs ht h
      cases m with
      | nil =>
          have more : text a ++ (l.flatMap text ++ s) = t := by
            simpa only [List.flatMap_nil, List.nil_append, List.flatMap_cons, List.append_assoc] using h
          exact absurd (more ▸ ht) (apart a _ (hl a List.mem_cons_self))
      | cons b m =>
          obtain ⟨ha, hl⟩ := List.forall_mem_cons.1 hl
          obtain ⟨hb, hm'⟩ := List.forall_mem_cons.1 hm
          simp only [List.flatMap_cons, List.append_assoc] at h
          obtain ⟨rfl, more⟩ := readable a b _ _ ha hb (follow l s hl hs) (follow m t hm' ht) h
          obtain ⟨rfl, rest⟩ := ih m s t hl hm' hs ht more
          exact ⟨rfl, rest⟩

end Ontograph
