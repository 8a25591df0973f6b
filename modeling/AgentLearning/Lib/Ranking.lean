import Mathlib.Algebra.Order.BigOperators.Group.List
import Mathlib.Data.List.Sort

/-!
# Rankings

A list in the order of falling scores, as a stable sort gives it: of two elements with the same
score, the one that came first stays first. So what is put in front of a list pushes back
everything in it that does not score higher.
-/

/-- A list that is sorted by an order that tells all its elements apart does not depend on the order
that they come in. -/
theorem insertionSort_eq_of_perm {α : Type*} {r : α → α → Prop} [DecidableRel r] [Std.Total r]
    [IsTrans α r] {l l' : List α} (hr : ∀ a ∈ l, ∀ b ∈ l, r a b → r b a → a = b)
    (h : l'.Perm l) : l'.insertionSort r = l.insertionSort r := by
  refine List.Perm.eq_of_pairwise (fun a b ha hb => hr a ?_ b ?_)
    (List.pairwise_insertionSort r l') (List.pairwise_insertionSort r l) ?_
  · exact h.mem_iff.mp ((List.mem_insertionSort r).mp ha)
  · exact (List.mem_insertionSort r).mp hb
  · exact (List.perm_insertionSort r l').trans (h.trans (List.perm_insertionSort r l).symm)

/-- The last element with `p` of a list that was sorted by `f`, in the list itself. -/
theorem find?_reverse_insertionSort {α β : Type*} [LinearOrder β] {l : List α} (hnd : l.Nodup)
    {p : α → Bool} {f : α → β} {x : α}
    (h : (l.insertionSort fun a b => f a ≤ f b).reverse.find? p = some x) :
    p x ∧ ∃ l₁ l₂, l = l₁ ++ x :: l₂ ∧ (∀ y ∈ l₁, p y → f y ≤ f x) ∧ ∀ y ∈ l₂, p y → f y < f x := by
  rw [List.find?_eq_some_iff_append] at h
  obtain ⟨hp, s₂, s₁, hsort, hlast⟩ := h
  rw [List.reverse_eq_iff, List.reverse_append, List.reverse_cons, List.append_assoc,
    List.singleton_append] at hsort
  have hsorted := List.pairwise_insertionSort (fun a b => f a ≤ f b) l
  rw [hsort] at hsorted
  have hle (y) (hy : y ∈ l) (hpy : p y) : f y ≤ f x := by
    have hmem : y ∈ s₁.reverse ++ x :: s₂.reverse := by rwa [← hsort, List.mem_insertionSort]
    simp only [List.mem_append, List.mem_cons, List.mem_reverse] at hmem
    rcases hmem with hy₁ | rfl | hy₂
    · exact (List.pairwise_append.mp hsorted).2.2 y (by simpa using hy₁) x (by simp)
    · exact le_rfl
    · exact absurd hpy (by simpa using hlast y hy₂)
  have hx : x ∈ l := by
    rw [← List.mem_insertionSort fun a b => f a ≤ f b, hsort]
    simp
  obtain ⟨l₁, l₂, rfl⟩ := List.append_of_mem hx
  refine ⟨hp, l₁, l₂, rfl, fun y hy hpy => hle y (by simp [hy]) hpy, fun y hy hpy => ?_⟩
  by_contra hlt
  have hsub : [x, y].Sublist (l₁ ++ x :: l₂) :=
    (List.singleton_sublist.mpr hy).cons_cons x |>.trans (List.sublist_append_right l₁ _)
  have hpair := List.pair_sublist_insertionSort (r := fun a b => f a ≤ f b) (not_lt.mp hlt) hsub
  rw [hsort] at hpair
  have hnd' : (s₁.reverse ++ x :: s₂.reverse).Nodup :=
    hsort ▸ (List.perm_insertionSort _ _).nodup_iff.mpr hnd
  obtain ⟨r₁, r₂, hr, hr₁, hr₂⟩ := List.sublist_append_iff.mp hpair
  cases r₁ with
  | nil =>
    rw [List.nil_append] at hr
    rw [← hr, List.cons_sublist_cons, List.singleton_sublist, List.mem_reverse] at hr₂
    exact absurd hpy (by simpa using hlast y hr₂)
  | cons z r₁ =>
    rw [List.cons_append, List.cons.injEq] at hr
    have hx₁ : x ∈ s₁.reverse := hr₁.subset (by simp [hr.1])
    exact (List.nodup_append.mp hnd').2.2 x hx₁ x (by simp) rfl

section Ranking

variable {α β : Type*} [LE β] [DecidableLE β] (score : α → β)

def ranking (l : List α) : List α := l.insertionSort fun x y => score y ≤ score x

theorem ranking_perm (l : List α) : (ranking score l).Perm l := List.perm_insertionSort _ l

@[simp]
theorem mem_ranking {l : List α} {x : α} : x ∈ ranking score l ↔ x ∈ l :=
  (ranking_perm score l).mem_iff

@[simp]
theorem length_ranking (l : List α) : (ranking score l).length = l.length :=
  (ranking_perm score l).length_eq

theorem pairwise_ranking {α β : Type*} [LinearOrder β] (score : α → β) (l : List α) :
    (ranking score l).Pairwise fun x y => score y ≤ score x := by
  have : IsTrans α fun x y => score y ≤ score x := ⟨fun _ _ _ h h' => h'.trans h⟩
  have : Std.Total fun x y : α => score y ≤ score x := ⟨fun x y => le_total (score y) (score x)⟩
  exact List.pairwise_insertionSort _ l

theorem pairwise_orderedInsert_stable {α β : Type*} [LinearOrder β] {score : α → β}
    {R : α → α → Prop} {x : α} :
    ∀ {l : List α}, l.Pairwise (fun a b => score b < score a ∨ score b = score a ∧ R a b) →
      (∀ y ∈ l, R x y) →
      (l.orderedInsert (fun a b => score b ≤ score a) x).Pairwise
        fun a b => score b < score a ∨ score b = score a ∧ R a b
  | [], _, _ => by simp
  | y :: l, hsorted, hx => by
    rw [List.orderedInsert_cons]
    rw [List.pairwise_cons] at hsorted
    split_ifs with hle
    · refine List.Pairwise.cons (fun z hz => ?_) (List.Pairwise.cons hsorted.1 hsorted.2)
      have hzx : score z ≤ score x := by
        rcases List.mem_cons.mp hz with rfl | hz
        · exact hle
        · rcases hsorted.1 z hz with hlt | ⟨heq, -⟩
          · exact hlt.le.trans hle
          · exact heq.le.trans hle
      rcases hzx.lt_or_eq with hlt | heq
      · exact .inl hlt
      · exact .inr ⟨heq, hx z hz⟩
    · refine List.Pairwise.cons (fun z hz => ?_)
        (pairwise_orderedInsert_stable hsorted.2 fun z hz => hx z (List.mem_cons_of_mem _ hz))
      rcases (List.mem_orderedInsert _).mp hz with rfl | hz
      · exact .inl (not_le.mp hle)
      · exact hsorted.1 z hz

/-- A ranking keeps the order of what scores the same. -/
theorem pairwise_ranking_stable {α β : Type*} [LinearOrder β] (score : α → β) {R : α → α → Prop} :
    ∀ {l : List α}, l.Pairwise R →
      (ranking score l).Pairwise fun a b => score b < score a ∨ score b = score a ∧ R a b
  | [], _ => by simp [ranking]
  | x :: l, h => by
    rw [List.pairwise_cons] at h
    exact pairwise_orderedInsert_stable (pairwise_ranking_stable score h.2) fun y hy =>
      h.1 y ((mem_ranking score).mp hy)

/-- Ranking by a score that is computed first. -/
theorem map_ranking {α β γ : Type*} [LE β] [DecidableLE β] (score : γ → β) (f : α → γ)
    (l : List α) : ranking score (l.map f) = (ranking (fun x => score (f x)) l).map f :=
  (List.map_insertionSort _ _ f l fun _ _ _ _ => Iff.rfl).symm

/-- What is scored higher comes first. -/
theorem idxOf_lt_idxOf {α β κ : Type*} [Preorder β] [DecidableEq κ] {score : α → β} {key : α → κ}
    {l : List α} (hsorted : l.Pairwise fun x y => score y ≤ score x) (hnodup : (l.map key).Nodup)
    {x y : α} (hx : x ∈ l) (hy : y ∈ l) (h : score y < score x) :
    (l.map key).idxOf (key x) < (l.map key).idxOf (key y) := by
  induction l with
  | nil => simp at hx
  | cons z l ih =>
    rw [List.pairwise_cons] at hsorted
    rw [List.map_cons, List.nodup_cons] at hnodup
    have hne : ∀ {w}, w ∈ l → key z ≠ key w := fun hw heq =>
      hnodup.1 (heq ▸ List.mem_map_of_mem hw)
    rw [List.mem_cons] at hx hy
    rcases hy with rfl | hy
    · rcases hx with rfl | hx
      · exact absurd h (lt_irrefl _)
      · exact absurd (h.trans_le (hsorted.1 x hx)) (lt_irrefl _)
    · rw [List.map_cons, List.idxOf_cons_ne _ (hne hy)]
      rcases hx with rfl | hx
      · rw [List.idxOf_cons_self]
        exact Nat.succ_pos _
      · rw [List.idxOf_cons_ne _ (hne hx)]
        exact Nat.succ_lt_succ (ih hsorted.2 hnodup.2 hx hy)

/-- At least `n` elements come before every occurrence of `x`. -/
def Behind (n : ℕ) (x : α) (l : List α) : Prop := ∀ l₁ l₂, l = l₁ ++ x :: l₂ → n ≤ l₁.length

variable {score} {m n : ℕ} {x y : α} {l : List α}

theorem Behind.mono (h : Behind n x l) (hmn : m ≤ n) : Behind m x l :=
  fun l₁ l₂ hsplit => hmn.trans (h l₁ l₂ hsplit)

theorem behind_nil : Behind n x [] := fun l₁ l₂ hsplit => by simp at hsplit

theorem behind_cons : Behind n x (y :: l) ↔ (y = x → n = 0) ∧ Behind (n - 1) x l := by
  constructor
  · intro h
    refine ⟨?_, ?_⟩
    · rintro rfl
      simpa using h [] l rfl
    · rintro l₁ l₂ rfl
      have := h (y :: l₁) l₂ rfl
      rw [List.length_cons] at this
      omega
  · rintro ⟨hhead, htail⟩ l₁ l₂ hsplit
    obtain _ | ⟨z, l₁⟩ := l₁
    · obtain ⟨hyx, -⟩ := List.cons.inj hsplit
      exact (hhead hyx).le
    · obtain ⟨-, hrest⟩ := List.cons.inj hsplit
      have := htail l₁ l₂ hrest
      rw [List.length_cons]
      omega

theorem Behind.notMem_take (h : Behind n x l) : x ∉ l.take n := by
  intro hx
  obtain ⟨l₁, l₂, hsplit⟩ := List.append_of_mem hx
  have hle : n ≤ l₁.length := by
    refine h l₁ (l₂ ++ l.drop n) ?_
    rw [← List.cons_append, ← List.append_assoc, ← hsplit, List.take_append_drop]
  have hlength := congrArg List.length hsplit
  rw [List.length_take, List.length_append, List.length_cons] at hlength
  omega

variable (score) in
/-- An element that is put in its place comes before `x` if it does not score lower. -/
theorem Behind.orderedInsert (hne : y ≠ x) (h : Behind n x l) :
    Behind (n + if score x ≤ score y then 1 else 0) x
      (l.orderedInsert (fun x y => score y ≤ score x) y) := by
  induction l generalizing n with
  | nil => exact behind_cons.mpr ⟨fun hyx => absurd hyx hne, behind_nil⟩
  | cons z l ih =>
    rw [List.orderedInsert_cons]
    obtain ⟨hhead, htail⟩ := behind_cons.mp h
    by_cases hz : score z ≤ score y
    · rw [if_pos hz]
      refine behind_cons.mpr ⟨fun hyx => absurd hyx hne, h.mono ?_⟩
      split_ifs <;> omega
    · -- `z` is still before `y`; where it is `x` itself, `y` does not count
      rw [if_neg hz]
      refine behind_cons.mpr ⟨?_, (ih htail).mono (by omega)⟩
      rintro rfl
      rw [if_neg hz, hhead rfl]

theorem behind_ranking_append {front : List α} (hne : ∀ y ∈ front, y ≠ x) :
    Behind (front.countP fun y => score x ≤ score y) x (ranking score (front ++ l)) := by
  induction front with
  | nil => exact fun l₁ l₂ _ => Nat.zero_le _
  | cons y front ih =>
    have hrest := ih fun y hy => hne y (List.mem_cons_of_mem _ hy)
    have hinsert := hrest.orderedInsert score (hne y List.mem_cons_self)
    rw [List.countP_cons]
    simpa [ranking] using hinsert

theorem mem_of_mem_take_ranking_append {front l : List α} {k : ℕ} {x : α}
    (hk : k ≤ front.countP fun y => score x ≤ score y)
    (hx : x ∈ (ranking score (front ++ l)).take k) : x ∈ front := by
  by_contra hfront
  have hbehind : Behind k x (ranking score (front ++ l)) :=
    (behind_ranking_append fun y hy hyx => absurd hy (hyx ▸ hfront)).mono hk
  exact hbehind.notMem_take hx

end Ranking

/-! ## Crowding out -/

section Crowd

variable {α β : Type*} (k : ℕ) (f : α → α)

/-- The list, behind `k` copies of each of its elements. -/
def crowd (l : List α) : List α := l.flatMap (fun x => List.replicate k (f x)) ++ l

variable {k f} {l : List α}

theorem map_crowd {g : α → α} (hg : ∀ x, g (f x) = f (g x)) :
    (crowd k f l).map g = crowd k f (l.map g) := by
  simp [crowd, List.map_flatMap, List.flatMap_map, hg]

theorem filter_copies {p : α → Bool} (hp : ∀ x, p (f x) = p x) :
    (l.flatMap fun x => List.replicate k (f x)).filter p
      = (l.filter p).flatMap fun x => List.replicate k (f x) := by
  induction l with
  | nil => rfl
  | cons x l ih =>
    rw [List.flatMap_cons, List.filter_append, ih, List.filter_cons]
    cases hx : p x with
    | false => simp [hp, hx]
    | true => simp [hp, hx]

theorem filter_crowd {p : α → Bool} (hp : ∀ x, p (f x) = p x) :
    (crowd k f l).filter p = crowd k f (l.filter p) := by
  rw [crowd, List.filter_append, filter_copies hp, crowd]

/-- What was in the list is still there to be seen, and the copies are not. -/
theorem filter_crowd_of_hidden {p : α → Bool} (hf : ∀ x, p (f x) = false)
    (hl : ∀ x ∈ l, p x = true) : (crowd k f l).filter p = l := by
  have hcopies : (l.flatMap fun x => List.replicate k (f x)).filter p = [] := by
    refine List.filter_eq_nil_iff.mpr fun y hy => ?_
    obtain ⟨x, -, hyx⟩ := List.mem_flatMap.mp hy
    obtain ⟨-, rfl⟩ := List.mem_replicate.mp hyx
    simp [hf]
  rw [crowd, List.filter_append, hcopies, List.nil_append, List.filter_eq_self.mpr hl]

theorem mem_crowd {y : α} (hy : y ∈ crowd k f l) : y ∈ l ∨ ∃ x ∈ l, y = f x := by
  obtain hcopy | hy := List.mem_append.mp hy
  · obtain ⟨x, hx, hyx⟩ := List.mem_flatMap.mp hcopy
    exact .inr ⟨x, hx, (List.mem_replicate.mp hyx).2⟩
  · exact .inl hy

/-- Where the copies score the same, the first `k` are all copies. -/
theorem mem_take_ranking_crowd [Preorder β] [DecidableLE β] {score : α → β}
    (hf : ∀ x, score (f x) = score x) {y : α}
    (hy : y ∈ (ranking score (crowd k f l)).take k) : ∃ x ∈ l, y = f x := by
  obtain hl | hcopy := mem_crowd ((mem_ranking score).mp (List.mem_of_mem_take hy))
  · have hk : k ≤ (l.flatMap fun x => List.replicate k (f x)).countP
        fun z => score y ≤ score z := by
      have hsublist : (List.replicate k (f y)).Sublist
          (l.flatMap fun x => List.replicate k (f x)) :=
        List.sublist_flatten_of_mem (List.mem_map.mpr ⟨y, hl, rfl⟩)
      refine le_of_eq_of_le ?_ hsublist.countP_le
      simp [List.countP_replicate, hf]
    obtain ⟨x, hx, hyx⟩ := List.mem_flatMap.mp (mem_of_mem_take_ranking_append hk hy)
    exact ⟨x, hx, (List.mem_replicate.mp hyx).2⟩
  · exact hcopy

end Crowd

/-! ## Scores that are sums -/

/-- A score that is a sum of positive amounts is positive if there is something to add. -/
theorem sum_filter_pos_iff {α M : Type*} [AddCommMonoid M] [PartialOrder M]
    [IsOrderedAddMonoid M] {l : List α} {p : α → Prop} [DecidablePred p] {amount : α → M}
    (h : ∀ x ∈ l, p x → 0 < amount x) :
    0 < ((l.filter fun x => p x).map amount).sum ↔ ∃ x ∈ l, p x := by
  constructor
  · intro hpos
    by_contra hnone
    have hempty : l.filter (fun x => p x) = [] := by
      refine List.filter_eq_nil_iff.mpr fun x hx hp => hnone ⟨x, hx, ?_⟩
      simpa using hp
    simp [hempty] at hpos
  · rintro ⟨x, hx, hp⟩
    refine List.sum_pos _ (fun y hy => ?_) ?_
    · obtain ⟨z, hz, rfl⟩ := List.mem_map.mp hy
      rw [List.mem_filter, decide_eq_true_eq] at hz
      exact h z hz.1 hz.2
    · exact List.ne_nil_of_mem (List.mem_map_of_mem (List.mem_filter.mpr ⟨hx, by simpa using hp⟩))
