import Mathlib.Order.Lattice
import Mathlib.Logic.Function.Basic
import Mathlib.Data.List.Basic

/-!
# Leases

A lease on a name is given to a client until a time, and the client may return it before. A log
says who was given what until when, and who began to return what. A table of the leases that are
out guards the log if a lease that was not returned is in the table until it ends: then a name that
is free in the table can be given away, and no two clients hold it at one time.
-/

namespace Lease

variable {C N T : Type*}

/-- `since` is when the lease was given and `till` when it ends; a return is noted when it
begins. -/
inductive Event (C N T : Type*)
  | acquired (client : C) (name : N) (since till : T)
  | released (client : C) (name : N)
  deriving DecidableEq

/-- The client was given the name until then and has not begun to return it. -/
def Live (log : List (Event C N T)) (c : C) (n : N) (till : T) : Prop :=
  ∃ l₁ since l₂, log = l₁ ++ .acquired c n since till :: l₂ ∧ .released c n ∉ l₂

/-- Nobody is given a name before the end of a lease on it that another client has not begun to
return. -/
def Exclusive [LE T] (log : List (Event C N T)) : Prop :=
  ∀ l₁ l₂ l₃ c c' n since since' till till',
    log = l₁ ++ .acquired c n since till :: l₂ ++ .acquired c' n since' till' :: l₃ →
      c ≠ c' → .released c n ∉ l₂ → till ≤ since'

section Live

variable {log : List (Event C N T)} {c c' : C} {n n' : N} {since till till' : T}

theorem not_live_nil : ¬ Live ([] : List (Event C N T)) c n till := by
  rintro ⟨l₁, since, l₂, h, -⟩
  simp at h

theorem live_append_acquired (h : Live (log ++ [.acquired c' n' since till']) c n till) :
    Live log c n till ∨ c = c' ∧ n = n' ∧ till = till' := by
  obtain ⟨l₁, since₁, l₂, heq, hnot⟩ := h
  rcases List.eq_nil_or_concat l₂ with rfl | ⟨l₂', e, rfl⟩
  · obtain ⟨-, hlast⟩ := List.append_inj' heq rfl
    cases hlast
    exact .inr ⟨rfl, rfl, rfl⟩
  · rw [List.concat_eq_append, ← List.cons_append, ← List.append_assoc] at heq
    obtain ⟨hinit, -⟩ := List.append_inj' heq rfl
    exact .inl ⟨l₁, since₁, l₂', hinit, fun hmem => hnot (by simp [hmem])⟩

theorem live_append_released (h : Live (log ++ [.released c' n']) c n till) :
    Live log c n till ∧ ¬ (c = c' ∧ n = n') := by
  obtain ⟨l₁, since₁, l₂, heq, hnot⟩ := h
  rcases List.eq_nil_or_concat l₂ with rfl | ⟨l₂', e, rfl⟩
  · obtain ⟨-, hlast⟩ := List.append_inj' heq rfl
    cases hlast
  · rw [List.concat_eq_append, ← List.cons_append, ← List.append_assoc] at heq
    obtain ⟨hinit, hlast⟩ := List.append_inj' heq rfl
    cases hlast
    refine ⟨⟨l₁, since₁, l₂', hinit, fun hmem => hnot (by simp [hmem])⟩, ?_⟩
    rintro ⟨rfl, rfl⟩
    exact hnot (by simp)

end Live

section Exclusive

variable [LE T] {log : List (Event C N T)} {c : C} {n : N} {since till : T}

theorem exclusive_nil : Exclusive ([] : List (Event C N T)) := by
  intro l₁ l₂ l₃ c c' n since since' till till' h
  simp at h

theorem Exclusive.acquired (h : Exclusive log)
    (hlive : ∀ c' till', Live log c' n till' → c' ≠ c → till' ≤ since) :
    Exclusive (log ++ [.acquired c n since till]) := by
  intro l₁ l₂ l₃ c₁ c₂ n' since₁ since₂ till₁ till₂ heq hne hnot
  rcases List.eq_nil_or_concat l₃ with rfl | ⟨l₃', e, rfl⟩
  · obtain ⟨hinit, hlast⟩ := List.append_inj' heq rfl
    cases hlast
    exact hlive c₁ till₁ ⟨l₁, since₁, l₂, hinit, hnot⟩ hne
  · rw [List.concat_eq_append, ← List.cons_append, ← List.append_assoc] at heq
    exact h l₁ l₂ l₃' c₁ c₂ n' since₁ since₂ till₁ till₂ (List.append_inj' heq rfl).1 hne hnot

theorem Exclusive.released (h : Exclusive log) : Exclusive (log ++ [.released c n]) := by
  intro l₁ l₂ l₃ c₁ c₂ n' since₁ since₂ till₁ till₂ heq hne hnot
  rcases List.eq_nil_or_concat l₃ with rfl | ⟨l₃', e, rfl⟩
  · obtain ⟨-, hlast⟩ := List.append_inj' heq rfl
    cases hlast
  · rw [List.concat_eq_append, ← List.cons_append, ← List.append_assoc] at heq
    exact h l₁ l₂ l₃' c₁ c₂ n' since₁ since₂ till₁ till₂ (List.append_inj' heq rfl).1 hne hnot

end Exclusive

/-! ## The table of leases -/

/-- The log is exclusive, and what it has of leases that are neither returned nor over is in the
table. -/
structure Guards [LinearOrder T] (table : N → Option (C × T)) (now : T)
    (log : List (Event C N T)) : Prop where
  exclusive : Exclusive log
  held : ∀ c n till, Live log c n till → now < till → table n = some (c, till)

/-- Nobody has the name at this time. -/
def Free [LE T] (table : N → Option (C × T)) (now : T) (n : N) : Prop :=
  ∀ c till, table n = some (c, till) → till ≤ now

namespace Guards

variable [LinearOrder T] {table table' : N → Option (C × T)} {now now' : T}
  {log : List (Event C N T)} {c : C} {n : N} {till : T}

theorem nil (table : N → Option (C × T)) (now : T) : Guards table now [] where
  exclusive := exclusive_nil
  held _ _ _ h := absurd h not_live_nil

theorem tick (h : Guards table now log) (hnow : now ≤ now') : Guards table now' log where
  exclusive := h.exclusive
  held c n till hlive hlt := h.held c n till hlive (lt_of_le_of_lt hnow hlt)

theorem till_le (h : Guards table now log) (hfree : Free table now n) (hlive : Live log c n till) :
    till ≤ now := by
  by_contra hlt
  rw [not_le] at hlt
  exact absurd (hfree c till (h.held c n till hlive hlt)) (not_le.mpr hlt)

/-- A free name is given away. -/
theorem acquire [DecidableEq N] (h : Guards table now log) (hfree : Free table now n) (c : C)
    (till : T) : Guards (Function.update table n (some (c, till))) now
      (log ++ [.acquired c n now till]) where
  exclusive := h.exclusive.acquired fun _ _ hlive _ => h.till_le hfree hlive
  held c' n' till' hlive hlt := by
    rcases live_append_acquired hlive with hold | ⟨rfl, rfl, rfl⟩
    · have hne : n' ≠ n := by
        rintro rfl
        exact absurd (h.till_le hfree hold) (not_le.mpr hlt)
      rw [Function.update_of_ne hne]
      exact h.held c' n' till' hold hlt
    · exact Function.update_self ..

theorem release (h : Guards table now log) (c : C) (n : N) :
    Guards table now (log ++ [.released c n]) where
  exclusive := h.exclusive.released
  held c' n' till hlive hlt := h.held c' n' till (live_append_released hlive).1 hlt

/-- A name is taken out of the table if nobody has it, or if who has it began to return it. -/
theorem clear (h : Guards table now log) (hclear : ∀ n c till, table n = some (c, till) →
      table' n = some (c, till) ∨ till ≤ now ∨ ∀ till', ¬ Live log c n till') :
    Guards table' now log where
  exclusive := h.exclusive
  held c n till hlive hlt := by
    rcases hclear n c till (h.held c n till hlive hlt) with hkept | hover | hreturned
    · exact hkept
    · exact absurd hover (not_le.mpr hlt)
    · exact absurd hlive (hreturned till)

end Guards

end Lease
