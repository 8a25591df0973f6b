import Mathlib.Data.List.Forall2

/-!
# Lists that are related element by element

`List.Forall₂` along a loop that may raise, and what it says of the parts of both lists.
-/

/-- A loop that raises nothing has one value for each element. -/
theorem forall₂_of_mapM_ok {α β ε : Type} {f : α → Except ε β} :
    ∀ {items : List α} {values : List β},
    items.mapM f = .ok values → List.Forall₂ (fun item value => f item = .ok value) items values
  | [], values, h => by
    cases h
    exact .nil
  | item :: items, values, h => by
    rw [List.mapM_cons] at h
    rcases hitem : f item with error | value
    · simp [hitem, bind, Except.bind] at h
    · rcases hitems : items.mapM f with error | rest
      · simp [hitem, hitems, bind, Except.bind] at h
      · simp only [hitem, hitems, bind, Except.bind, pure, Except.pure, Except.ok.injEq] at h
        subst h
        exact .cons hitem (forall₂_of_mapM_ok hitems)

/-- A loop raises if and only if one of its rounds does, and then one of the errors `E` of the
rounds. -/
theorem mapM_cases {α β ε : Type} {f : α → Except ε β} {P : α → Prop} {E : ε → Prop} :
    ∀ {l : List α}, (∀ item ∈ l, (P item ∧ ∃ value, f item = .ok value)
      ∨ ¬ P item ∧ ∃ e, E e ∧ f item = .error e) →
      ((∀ item ∈ l, P item) ∧ ∃ values, l.mapM f = .ok values)
        ∨ (¬ ∀ item ∈ l, P item) ∧ ∃ e, E e ∧ l.mapM f = .error e
  | [], _ => .inl ⟨by simp, [], rfl⟩
  | item :: items, h => by
    simp only [List.mem_cons, forall_eq_or_imp, List.mapM_cons] at h ⊢
    obtain ⟨⟨hitem, value, hvalue⟩ | ⟨hitem, e, he, herror⟩, htail⟩ := h
    · rcases mapM_cases htail with ⟨hitems, values, hvalues⟩ | ⟨hitems, e, he, herror⟩
      · exact .inl ⟨⟨hitem, hitems⟩, value :: values, by rw [hvalue, hvalues]; rfl⟩
      · exact .inr ⟨fun hall => hitems hall.2, e, he, by rw [hvalue, herror]; rfl⟩
    · exact .inr ⟨fun hall => hitem hall.1, e, he, by rw [herror]; rfl⟩

theorem exists_of_mem_forall₂ {α β : Type*} {R : α → β → Prop} {b : β} :
    ∀ {items : List α} {values : List β}, List.Forall₂ R items values → b ∈ values →
      ∃ a ∈ items, R a b
  | _, _, .cons h htail, hb => by
    rcases List.mem_cons.mp hb with rfl | hb
    · exact ⟨_, List.mem_cons_self, h⟩
    · obtain ⟨a, ha, hab⟩ := exists_of_mem_forall₂ htail hb
      exact ⟨a, List.mem_cons_of_mem _ ha, hab⟩

theorem exists_append_of_forall₂ {α β : Type*} {R : α → β → Prop} {right : List α} :
    ∀ {left : List α} {values : List β}, List.Forall₂ R (left ++ right) values →
      ∃ left' right', List.Forall₂ R left left' ∧ List.Forall₂ R right right'
        ∧ values = left' ++ right'
  | [], values, h => ⟨[], values, .nil, h, rfl⟩
  | _ :: _, _ :: _, .cons hx h => by
    obtain ⟨left', right', hleft, hright, rfl⟩ := exists_append_of_forall₂ h
    exact ⟨_, right', .cons hx hleft, hright, rfl⟩
