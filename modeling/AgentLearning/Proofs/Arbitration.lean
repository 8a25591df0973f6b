import Mathlib.Tactic.Linarith
import AgentLearning.Arbitrator
import AgentLearning.Lib.Ranking

/-!
# What the arbitrator decides

The candidates are ranked by priority, falling confidence and role. Only the second one can contest
the first: a third one that is as close and disagrees goes unnoticed if the second one agrees. With
distinct roles the ranking, and all that follows from it, does not depend on the order in which the
candidates come.
-/

namespace AgentLearning.Arbitrator

open ArbitrationCandidate (key entry)

variable {ρ : Type*}

/-! ## The ranking -/

section Ranked

variable {candidates : List (ArbitrationCandidate ρ)} {a b : ArbitrationCandidate ρ}

theorem key_le_iff : a.key ≤ b.key ↔ a.priority < b.priority ∨ a.priority = b.priority
    ∧ (b.confidence < a.confidence ∨ a.confidence = b.confidence ∧ a.role ≤ b.role) := by
  simp only [key, Prod.Lex.toLex_le_toLex, neg_lt_neg_iff, neg_inj]

/-- Of two candidates in their order, the first one has at least the priority, and the confidence at
the same one. -/
theorem le_of_key_le (h : a.key ≤ b.key) :
    a.priority ≤ b.priority ∧ (b.priority = a.priority → b.confidence ≤ a.confidence) := by
  rcases key_le_iff.mp h with hlt | ⟨heq, hlt | ⟨hconf, -⟩⟩
  · exact ⟨hlt.le, fun heq => absurd heq hlt.ne'⟩
  · exact ⟨heq.le, fun _ => hlt.le⟩
  · exact ⟨heq.le, fun _ => hconf.ge⟩

theorem role_eq_of_key (h : a.key ≤ b.key) (h' : b.key ≤ a.key) : a.role = b.role := by
  have hkey : a.key = b.key := le_antisymm h h'
  simp only [key, EmbeddingLike.apply_eq_iff_eq, Prod.mk.injEq] at hkey
  exact hkey.2.2

theorem ranked_perm (candidates : List (ArbitrationCandidate ρ)) :
    (ranked candidates).Perm candidates :=
  List.perm_insertionSort ..

theorem pairwise_ranked (candidates : List (ArbitrationCandidate ρ)) :
    (ranked candidates).Pairwise fun a b => a.key ≤ b.key :=
  List.pairwise_insertionSort (fun a b : ArbitrationCandidate ρ => a.key ≤ b.key) candidates

end Ranked

/-! ## Close conflicts -/

/-- The same priority, another result, and a confidence that is close. -/
def Contests (best c : ArbitrationCandidate ρ) : Prop :=
  c.priority = best.priority ∧ c.result ≠ best.result ∧ |best.confidence - c.confidence| < 1 / 10

/-- The smallest priority number, and the greatest confidence with it. -/
def Leads (best : ArbitrationCandidate ρ) (candidates : List (ArbitrationCandidate ρ)) : Prop :=
  ∀ c ∈ candidates,
    best.priority ≤ c.priority ∧ (c.priority = best.priority → c.confidence ≤ best.confidence)

/-- The selected candidate leads, and contested by none if the decision is not left to a human. -/
def HidesNone (candidates : List (ArbitrationCandidate ρ)) (decision : ArbitrationDecision ρ) :
    Prop :=
  ∃ best ∈ candidates, decision.selectedRole = best.role ∧ decision.result = best.result
    ∧ Leads best candidates
    ∧ (decision.status = "resolved" → ∀ c ∈ candidates, ¬ Contests best c)

/-- If the second candidate of the ranking agrees with the first, then none after it contests the
first. -/
def SecondSpeaksForAll (candidates : List (ArbitrationCandidate ρ)) : Prop :=
  ∀ best second rest, ranked candidates = best :: second :: rest →
    second.result = best.result → ∀ c ∈ rest, ¬ Contests best c

section Resolve

variable {candidates : List (ArbitrationCandidate ρ)} {best second : ArbitrationCandidate ρ}
  {rest : List (ArbitrationCandidate ρ)}

theorem leads_of_ranked (h : ranked candidates = best :: rest) : Leads best candidates := by
  intro c hc
  have hsorted := pairwise_ranked candidates
  rw [h, List.pairwise_cons] at hsorted
  have hmem : c ∈ best :: rest := h ▸ (ranked_perm candidates).mem_iff.mpr hc
  rcases List.mem_cons.mp hmem with rfl | hrest
  · exact ⟨le_rfl, fun _ => le_rfl⟩
  · exact le_of_key_le (hsorted.1 c hrest)

/-- Two candidates that lead are level. -/
theorem Leads.level (h : Leads best candidates) (h' : Leads second candidates)
    (hbest : best ∈ candidates) (hsecond : second ∈ candidates) :
    second.priority = best.priority ∧ second.confidence = best.confidence := by
  have hpriority : second.priority = best.priority :=
    le_antisymm (h' best hbest).1 (h second hsecond).1
  exact ⟨hpriority,
    le_antisymm ((h second hsecond).2 hpriority) ((h' best hbest).2 hpriority.symm)⟩

/-- Who is close to the first is not closer than the second. -/
theorem second_close (h : ranked candidates = best :: second :: rest)
    {c : ArbitrationCandidate ρ} (hc : c ∈ rest) (hpriority : c.priority = best.priority)
    (hclose : |best.confidence - c.confidence| < 1 / 10) :
    second.priority = best.priority ∧ |best.confidence - second.confidence| < 1 / 10 := by
  have hsorted := pairwise_ranked candidates
  rw [h, List.pairwise_cons, List.pairwise_cons] at hsorted
  obtain ⟨hfirst, hsecond, -⟩ := hsorted
  have h₁ := le_of_key_le (hfirst second (by simp))
  have h₂ := le_of_key_le (hsecond c hc)
  have hsame : second.priority = best.priority := le_antisymm (hpriority ▸ h₂.1) h₁.1
  have hle := h₁.2 hsame
  have hle' := h₂.2 (hpriority.trans hsame.symm)
  rw [abs_lt] at hclose ⊢
  exact ⟨hsame, by linarith, by linarith⟩

/-- If the second does not contest the first, and speaks for all after it, then none does. -/
theorem not_contests_of_ranked (h : ranked candidates = best :: rest)
    (hspeaks : SecondSpeaksForAll candidates)
    (hsecond : ∀ second ∈ rest.head?, ¬ Contests best second) {c : ArbitrationCandidate ρ}
    (hc : c ∈ candidates) : ¬ Contests best c := by
  intro hcontests
  have hmem : c ∈ best :: rest := h ▸ (ranked_perm candidates).mem_iff.mpr hc
  rcases List.mem_cons.mp hmem with rfl | hrest
  · exact hcontests.2.1 rfl
  · rcases rest with _ | ⟨second, later⟩
    · simp at hrest
    · have hsecond := hsecond second (by simp)
      rcases List.mem_cons.mp hrest with rfl | hlater
      · exact hsecond hcontests
      · obtain ⟨hpriority, hnear⟩ := second_close h hlater hcontests.1 hcontests.2.2
        have hagrees : second.result = best.result := by
          by_contra hdiffers
          exact hsecond ⟨hpriority, hdiffers, hnear⟩
        exact hspeaks best second later h hagrees c hlater hcontests

variable [DecidableEq ρ]

theorem needsHuman_iff : needsHuman best second = true ↔ Contests best second := by
  simp only [needsHuman, Contests, decide_eq_true_eq]
  exact and_congr eq_comm (and_congr ne_comm Iff.rfl)

theorem resolve_eq (h : ranked candidates = best :: rest) :
    ∃ decision, resolve candidates = .ok decision
      ∧ decision.selectedRole = best.role ∧ decision.result = best.result
      ∧ decision.evidenceChain = (best :: rest).map entry
      ∧ (decision.status = "resolved" ↔ ∀ second ∈ rest.head?, ¬ Contests best second) := by
  unfold resolve
  simp only [h]
  split_ifs with hhuman
  · refine ⟨_, rfl, rfl, rfl, rfl, iff_of_false (by simp) fun hnone => ?_⟩
    obtain ⟨second, hsecond, hneeds⟩ := (Option.any_eq_true ..).mp hhuman
    exact hnone second hsecond (needsHuman_iff.mp hneeds)
  · refine ⟨_, rfl, rfl, rfl, rfl, iff_of_true rfl fun second hsecond hcontests => hhuman ?_⟩
    exact (Option.any_eq_true ..).mpr ⟨second, hsecond, needsHuman_iff.mpr hcontests⟩

end Resolve

/-- The decision hides no close conflict just if the second candidate does not agree with the first
where a later one contests it. -/
theorem resolve_hides_none_iff [DecidableEq ρ] (candidates : List (ArbitrationCandidate ρ))
    (hne : candidates ≠ []) :
    (∃ decision, resolve candidates = .ok decision ∧ HidesNone candidates decision)
      ↔ SecondSpeaksForAll candidates := by
  rcases hranked : ranked candidates with _ | ⟨best, rest⟩
  · have hempty := hranked ▸ ranked_perm candidates
    exact absurd hempty.symm.eq_nil hne
  · have hbest : best ∈ candidates :=
      (ranked_perm candidates).mem_iff.mp (by simp [hranked])
    have hleads := leads_of_ranked hranked
    obtain ⟨decision, hok, hrole, hresult, -, hstatus⟩ := resolve_eq hranked
    rw [hok]
    simp only [Except.ok.injEq, exists_eq_left']
    constructor
    · rintro ⟨best', hbest', -, hresult', hleads', hnone⟩ first second later heq hagrees c hc
        hclose
      obtain ⟨rfl, rfl⟩ := List.cons.inj (hranked.symm.trans heq)
      obtain ⟨hpriority, hconfidence⟩ := hleads.level hleads' hbest hbest'
      have hresolved : decision.status = "resolved" := by
        rw [hstatus]
        rintro second' hsecond ⟨-, hdiffers, -⟩
        rw [List.head?_cons, Option.mem_some_iff] at hsecond
        exact hdiffers (hsecond ▸ hagrees)
      have hmem : c ∈ candidates := (ranked_perm candidates).mem_iff.mp (by simp [hranked, hc])
      refine hnone hresolved c hmem ?_
      rw [Contests, hpriority, hconfidence, ← hresult', hresult]
      exact hclose
    · intro hspeaks
      refine ⟨best, hbest, hrole, hresult, hleads, fun hresolved c hc => ?_⟩
      rw [hstatus] at hresolved
      exact not_contests_of_ranked hranked hspeaks hresolved hc

/-- A second candidate that disagrees brings in a human. -/
theorem resolve_hides_none_iff_second :
    let candidates : List (ArbitrationCandidate String) :=
      [{ role := "executor", result := "approve", confidence := 82 / 100, priority := 2 },
        { role := "auditor", result := "reject", confidence := 78 / 100, priority := 2 }]
    ∃ decision, resolve candidates = .ok decision ∧ HidesNone candidates decision := by
  intro candidates
  refine (resolve_hides_none_iff candidates (by simp [candidates])).mpr ?_
  intro best second rest hranked
  have hlength := congrArg List.length hranked
  rw [(ranked_perm candidates).length_eq] at hlength
  obtain rfl : rest = [] := by simpa [candidates] using hlength
  simp

/-- The second candidate agrees with the first, and the third does not. -/
theorem resolve_hides_none_iff_fails_on_third :
    let candidates : List (ArbitrationCandidate String) :=
      [{ role := "executor", result := "approve", confidence := 90 / 100, priority := 1 },
        { role := "planner", result := "approve", confidence := 88 / 100, priority := 1 },
        { role := "auditor", result := "reject", confidence := 85 / 100, priority := 1 }]
    ¬ ∃ decision, resolve candidates = .ok decision ∧ HidesNone candidates decision := by
  intro candidates
  rintro ⟨decision, hok, best, hbest, hrole, -, -, hnone⟩
  have hdecision : (resolve candidates).toOption.map
      (fun decision => (decision.status, decision.selectedRole))
        = some ("resolved", "executor") := by decide +kernel
  rw [hok] at hdecision
  obtain ⟨hstatus, hselected⟩ := Prod.mk.inj (Option.some.inj hdecision)
  refine hnone hstatus
    { role := "auditor", result := "reject", confidence := 85 / 100, priority := 1 }
    (by simp [candidates]) ?_
  rw [hselected] at hrole
  simp only [candidates, List.mem_cons, List.not_mem_nil, or_false] at hbest
  rcases hbest with rfl | rfl | rfl
  · exact ⟨rfl, by decide, by decide +kernel⟩
  · simp at hrole
  · simp at hrole

/-! ## The order of arrival -/

theorem resolve_ok_iff [DecidableEq ρ] (candidates : List (ArbitrationCandidate ρ)) :
    (∃ decision, resolve candidates = .ok decision) ↔ candidates ≠ [] := by
  have hperm := ranked_perm candidates
  rcases hranked : ranked candidates with _ | ⟨best, rest⟩
  · rw [hranked] at hperm
    refine iff_of_false ?_ (not_not.mpr hperm.symm.eq_nil)
    rw [resolve, hranked]
    simp
  · rw [hranked] at hperm
    obtain ⟨decision, hok, -⟩ := resolve_eq hranked
    exact iff_of_true ⟨decision, hok⟩ fun hnil => by simp [hnil] at hperm

/-- Candidates with distinct roles are decided on in the same way in whatever order they come, and
each has its entry in the evidence chain. There is a decision unless there are no candidates. -/
theorem resolve_perm [DecidableEq ρ] (candidates candidates' : List (ArbitrationCandidate ρ))
    (hroles : (candidates.map ArbitrationCandidate.role).Nodup)
    (hperm : candidates'.Perm candidates) :
    resolve candidates' = resolve candidates
      ∧ ((∃ decision, resolve candidates = .ok decision) ↔ candidates ≠ [])
      ∧ ∀ decision, resolve candidates = .ok decision →
        decision.evidenceChain.Perm (candidates.map entry) := by
  have hranked : ranked candidates' = ranked candidates := by
    refine insertionSort_eq_of_perm (fun a ha b hb hle hge => ?_) hperm
    exact List.inj_on_of_nodup_map hroles ha hb (role_eq_of_key hle hge)
  refine ⟨by rw [resolve, resolve, hranked], resolve_ok_iff candidates, fun decision hok => ?_⟩
  rcases hlist : ranked candidates with _ | ⟨best, rest⟩
  · simp [resolve, hlist] at hok
  · obtain ⟨decision', hok', -, -, hchain, -⟩ := resolve_eq hlist
    obtain rfl := Except.ok.inj (hok.symm.trans hok')
    rw [hchain, ← hlist]
    exact (ranked_perm candidates).map entry

/-- Three candidates with equal priority, of which two have equal confidence. -/
theorem resolve_perm_reversed :
    let candidates : List (ArbitrationCandidate String) :=
      [{ role := "executor", result := "approve", confidence := 9 / 10, priority := 1 },
        { role := "auditor", result := "reject", confidence := 9 / 10, priority := 1 },
        { role := "planner", result := "approve", confidence := 1 / 2, priority := 1 }]
    resolve candidates.reverse = resolve candidates
      ∧ ∃ decision, resolve candidates = .ok decision
        ∧ decision.evidenceChain.Perm (candidates.map entry) := by
  intro candidates
  obtain ⟨hsame, hdecided, hchain⟩ :=
    resolve_perm candidates candidates.reverse (by decide) (List.reverse_perm _)
  obtain ⟨decision, hok⟩ := hdecided.mpr (by simp [candidates])
  exact ⟨hsame, decision, hok, hchain decision hok⟩

end AgentLearning.Arbitrator
