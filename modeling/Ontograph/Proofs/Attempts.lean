import Mathlib.Data.List.Forall2

/-!
# Attempts

An attempt has a result or fails.  Attempts one after the other succeed if all of them do, and so does an
attempt on each element of a list.  The results on a list then stand to the elements as the attempt has it,
place by place (`mapM_eq_ok`, `mapM_eq_some`).  All else about the results on a list follows from this: that
there are some if there is one for each element, which elements they have, and that an attempt which gives
back what was written gives back a list.
-/

namespace Ontograph

/-! ## One after the other -/

section

variable {ε α β : Type}

/-- A sequence of two steps succeeds if both do. -/
theorem bind_eq_ok {x : Except ε α} {f : α → Except ε β} {b : β} :
    (x >>= f) = .ok b ↔ ∃ a, x = .ok a ∧ f a = .ok b := by
  cases x with
  | error failure => simp [bind, Except.bind]
  | ok a => simp [bind, Except.bind]

@[simp] theorem ok_bind (a : α) (f : α → Except ε β) : (Except.ok a >>= f) = f a := rfl

@[simp] theorem bind_ok (x : Except ε α) : (x >>= fun a => .ok a) = x := by
  cases x <;> rfl

end

/-! ## Lists that are related place by place -/

section

variable {α β : Type} {R : α → β → Prop} {l : List α} {m : List β}

/-- There is a list that is related to another if there is an element for each. -/
theorem exists_forall₂ : (∃ m, List.Forall₂ R l m) ↔ ∀ a ∈ l, ∃ b, R a b := by
  induction l with
  | nil => simp
  | cons a rest ih =>
      rw [List.forall_mem_cons, ← ih]
      constructor
      · rintro ⟨_, related⟩
        obtain ⟨b, bs, first, others, rfl⟩ := List.forall₂_cons_left_iff.1 related
        exact ⟨⟨b, first⟩, bs, others⟩
      · rintro ⟨⟨b, first⟩, bs, others⟩
        exact ⟨b :: bs, .cons first others⟩

/-- What is in the second list is related to something in the first. -/
theorem exists_mem_of_forall₂ (h : List.Forall₂ R l m) {b : β} (hb : b ∈ m) : ∃ a ∈ l, R a b := by
  induction h with
  | nil => cases hb
  | @cons a _ _ _ first _ ih =>
      rcases List.mem_cons.1 hb with rfl | hb
      · exact ⟨a, List.mem_cons_self, first⟩
      · obtain ⟨a, ha, related⟩ := ih hb
        exact ⟨a, List.mem_cons_of_mem _ ha, related⟩

/-- Where each element has one other that is related to it, the second list has what is related to
something in the first. -/
theorem mem_iff_of_forall₂ (unique : Relator.RightUnique R) (h : List.Forall₂ R l m) {b : β} :
    b ∈ m ↔ ∃ a ∈ l, R a b := by
  refine ⟨exists_mem_of_forall₂ h, ?_⟩
  rintro ⟨a, ha, related⟩
  obtain ⟨c, hc, same⟩ := exists_mem_of_forall₂ h.flip ha
  exact unique related same ▸ hc

end

/-! ## One for each element -/

/-- Where two steps succeed exactly if both do, so do the steps for a list. -/
theorem mapM_eq_pure {μ : Type → Type} [Monad μ] [LawfulMonad μ]
    (both : ∀ {α β : Type} {x : μ α} {f : α → μ β} {b : β},
      x >>= f = pure b ↔ ∃ a, x = pure a ∧ f a = pure b)
    (same : ∀ {α : Type} {a b : α}, (pure a : μ α) = pure b → a = b)
    {α β : Type} {f : α → μ β} {l : List α} {bs : List β} :
    l.mapM f = pure bs ↔ List.Forall₂ (fun a b => f a = pure b) l bs := by
  induction l generalizing bs with
  | nil =>
      rw [List.mapM_nil, List.forall₂_nil_left_iff]
      exact ⟨fun h => (same h).symm, fun h => h ▸ rfl⟩
  | cons a rest ih =>
      rw [List.mapM_cons, both, List.forall₂_cons_left_iff]
      refine exists_congr fun b => ?_
      rw [both]
      constructor
      · rintro ⟨first, others, given, h⟩
        exact ⟨others, first, ih.1 given, (same h).symm⟩
      · rintro ⟨others, first, given, rfl⟩
        exact ⟨first, others, ih.2 given, rfl⟩

section

variable {ε α β : Type} {f : α → Except ε β} {l : List α} {bs : List β}

/-- The results on a list are the results on its elements, in order. -/
theorem mapM_eq_ok : l.mapM f = .ok bs ↔ List.Forall₂ (fun a b => f a = .ok b) l bs :=
  mapM_eq_pure bind_eq_ok Except.ok.inj

/-- There are results on a list if there is one on each element. -/
theorem exists_mapM_eq_ok : (∃ bs, l.mapM f = .ok bs) ↔ ∀ a ∈ l, ∃ b, f a = .ok b := by
  simp only [mapM_eq_ok, exists_forall₂]

/-- Attempts that are known to succeed give their results. -/
theorem mapM_eq_ok_map {g : α → β} (h : ∀ a ∈ l, f a = .ok (g a)) : l.mapM f = .ok (l.map g) :=
  mapM_eq_ok.2 (List.forall₂_map_right_iff.2 (List.forall₂_same.2 h))

/-- The results on a list have what is a result on an element. -/
theorem mem_of_mapM_eq_ok (h : l.mapM f = .ok bs) {b : β} : b ∈ bs ↔ ∃ a ∈ l, f a = .ok b :=
  mem_iff_of_forall₂ (fun _ _ _ hb hc => Except.ok.inj (hb.symm.trans hc)) (mapM_eq_ok.1 h)

end

section

variable {α β : Type} {f : α → Option β} {l m : List α} {bs : List β}

/-- The results on a list are the results on its elements, in order. -/
theorem mapM_eq_some : l.mapM f = some bs ↔ List.Forall₂ (fun a b => f a = some b) l bs :=
  mapM_eq_pure Option.bind_eq_some_iff Option.some.inj

/-- There are results on a list if there is one on each element. -/
theorem exists_mapM_eq_some : (∃ bs, l.mapM f = some bs) ↔ ∀ a ∈ l, ∃ b, f a = some b := by
  simp only [mapM_eq_some, exists_forall₂]

/-- The results on a list have what is a result on an element. -/
theorem mem_of_mapM_eq_some (h : l.mapM f = some bs) {b : β} : b ∈ bs ↔ ∃ a ∈ l, f a = some b :=
  mem_iff_of_forall₂ (fun _ _ _ hb hc => Option.some.inj (hb.symm.trans hc)) (mapM_eq_some.1 h)

/-- There are results on a list that has no elements but those of another, and no other results. -/
theorem exists_mapM_of_subset (h : l.mapM f = some bs) (part : ∀ a ∈ m, a ∈ l) :
    ∃ cs, m.mapM f = some cs ∧ ∀ c ∈ cs, c ∈ bs := by
  obtain ⟨cs, given⟩ := exists_mapM_eq_some.2 fun a ha => exists_mapM_eq_some.1 ⟨bs, h⟩ a (part a ha)
  refine ⟨cs, given, fun c hc => ?_⟩
  obtain ⟨a, ha, found⟩ := (mem_of_mapM_eq_some given).1 hc
  exact (mem_of_mapM_eq_some h).2 ⟨a, part a ha, found⟩

/-- If each element is given back for its image, a list is given back for its images. -/
theorem mapM_map_eq_some {g : β → α} {bs : List β} (h : ∀ b ∈ bs, f (g b) = some b) :
    (bs.map g).mapM f = some bs :=
  mapM_eq_some.2 (List.forall₂_map_left_iff.2 (List.forall₂_same.2 h))

end

end Ontograph
