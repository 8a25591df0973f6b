import Mathlib.Data.List.Infix
import Mathlib.Data.List.TakeWhile
import AgentLearning.Lib.Elementwise

/-!
# Substitution by patterns

A pattern is a sequence of repeated classes of characters between two word boundaries. It is looked
for from left to right, greedily and with backtracking, and what it matches is replaced by a label.
The text around a match has a boundary on both sides, so a label can only take boundaries away:
after the substitution the pattern occurs nowhere (`not_occurs_substitute`), and no other pattern
occurs that did not occur before (`occurs_of_occurs_substitute`), if none of them reaches into a
label.

A text is read with its boundaries: each character with whether there is one before it.
-/

/-- What a pattern asks for next. -/
inductive Atom (α : Type*)
  | boundary
  | chars (p : α → Bool) (least : ℕ) (most : Option ℕ)

namespace Atom

variable {α : Type*}

def consumes : Atom α → Bool
  | .boundary => false
  | .chars _ least _ => 0 < least

def admits (x : α) : Atom α → Bool
  | .boundary => false
  | .chars p _ _ => p x

end Atom

/-! ## Texts with their boundaries -/

section Marks

variable {α : Type*} (word : α → Bool)

def marks : Bool → List α → List (Bool × α)
  | _, [] => []
  | before, x :: text => (before != word x, x) :: marks (word x) text

/-- The boundary at the end of a text. -/
def endMark : Bool → List α → Bool
  | before, [] => before
  | _, x :: text => endMark (word x) text

/-- The boundary before the first character, or at the end if there is none. -/
def headMark : List (Bool × α) → Bool → Bool
  | [], ending => ending
  | x :: _, _ => x.1

theorem headMark_append (span rest : List (Bool × α)) (ending : Bool) :
    headMark (span ++ rest) ending = headMark span (headMark rest ending) := by
  cases span <;> rfl

theorem map_snd_marks :
    ∀ (before : Bool) (text : List α), (marks word before text).map Prod.snd = text
  | _, [] => rfl
  | _, x :: text => by rw [marks, List.map_cons, map_snd_marks (word x) text]

theorem marks_append : ∀ (before : Bool) (text text' : List α),
    marks word before (text ++ text')
      = marks word before text ++ marks word (endMark word before text) text'
  | _, [], _ => rfl
  | _, x :: text, text' => by
    rw [List.cons_append, marks, marks_append (word x) text text', marks, endMark,
      List.cons_append]

theorem endMark_append : ∀ (before : Bool) (text text' : List α),
    endMark word before (text ++ text') = endMark word (endMark word before text) text'
  | _, [], _ => rfl
  | _, x :: text, text' => endMark_append (word x) text text'

end Marks

/-! ## Matches -/

/-- The atoms match a span of a text, with the boundary at its end. -/
inductive Matches {α : Type*} : List (Atom α) → List (Bool × α) → Bool → Prop
  | nil {ending : Bool} : Matches [] [] ending
  | boundary {atoms : List (Atom α)} {span : List (Bool × α)} {ending : Bool} :
    headMark span ending = true → Matches atoms span ending →
    Matches (.boundary :: atoms) span ending
  | chars {p : α → Bool} {least : ℕ} {most : Option ℕ} {atoms : List (Atom α)}
    {taken span : List (Bool × α)} {ending : Bool} :
    (∀ x ∈ taken, p x.2 = true) → least ≤ taken.length → (∀ m ∈ most, taken.length ≤ m) →
    Matches atoms span ending → Matches (.chars p least most :: atoms) (taken ++ span) ending

/-- The length of the first match at the start of a text, the longest repetitions being tried
first. -/
def matchLength {α : Type*} : List (Atom α) → List (Bool × α) → Bool → Option ℕ
  | [], _, _ => some 0
  | .boundary :: atoms, text, ending =>
    if headMark text ending then matchLength atoms text ending else none
  | .chars p least most :: atoms, text, ending =>
    let run := (text.takeWhile fun x => p x.2).length
    let longest := most.elim run (min run)
    (List.range' least (longest + 1 - least)).reverse.findSome? fun n =>
      (matchLength atoms (text.drop n) ending).map (n + ·)

section Matching

variable {α : Type*} {atoms : List (Atom α)} {span text rest : List (Bool × α)} {ending : Bool}

theorem le_length_takeWhile {p : Bool × α → Bool} : ∀ {taken : List (Bool × α)},
    (∀ x ∈ taken, p x = true) → taken.length ≤ ((taken ++ rest).takeWhile p).length
  | [], _ => Nat.zero_le _
  | x :: taken, h => by
    rw [List.cons_append, List.takeWhile_cons_of_pos (h x List.mem_cons_self)]
    exact Nat.succ_le_succ (le_length_takeWhile fun y hy => h y (List.mem_cons_of_mem _ hy))

theorem matchLength_ne_none (h : Matches atoms span (headMark rest ending)) :
    matchLength atoms (span ++ rest) ending ≠ none := by
  generalize hending : headMark rest ending = ended at h
  induction h with
  | nil => simp [matchLength]
  | boundary hmark _ ih =>
    subst hending
    rw [matchLength, headMark_append, if_pos hmark]
    exact ih rfl
  | @chars p least most atoms taken span _ hp hleast hmost _ ih =>
    subst hending
    have hrun : taken.length ≤ ((taken ++ (span ++ rest)).takeWhile fun x => p x.2).length :=
      le_length_takeWhile (p := fun x => p x.2) hp
    have hlongest : taken.length ≤ most.elim
        ((taken ++ (span ++ rest)).takeWhile fun x => p x.2).length
        (min ((taken ++ (span ++ rest)).takeWhile fun x => p x.2).length) := by
      cases most with
      | none => exact hrun
      | some m => exact le_min hrun (hmost m rfl)
    rw [List.append_assoc, matchLength]
    intro hnone
    rw [List.findSome?_eq_none_iff] at hnone
    have hlength := hnone taken.length
      (by rw [List.mem_reverse, List.mem_range'_1]; omega)
    rw [List.drop_left, Option.map_eq_none_iff] at hlength
    exact ih rfl hlength

theorem matches_of_matchLength : ∀ {atoms : List (Atom α)} {text : List (Bool × α)} {n : ℕ},
    matchLength atoms text ending = some n →
      n ≤ text.length ∧ Matches atoms (text.take n) (headMark (text.drop n) ending)
  | [], text, n, h => by
    cases h
    exact ⟨Nat.zero_le _, .nil⟩
  | .boundary :: atoms, text, n, h => by
    rw [matchLength] at h
    split_ifs at h with hmark
    obtain ⟨hle, hmatches⟩ := matches_of_matchLength h
    refine ⟨hle, .boundary ?_ hmatches⟩
    rwa [← headMark_append, List.take_append_drop]
  | .chars p least most :: atoms, text, n, h => by
    rw [matchLength] at h
    obtain ⟨k, hk, hmap⟩ := List.exists_of_findSome?_eq_some h
    obtain ⟨n', hrest, rfl⟩ := Option.map_eq_some_iff.mp hmap
    obtain ⟨hle, hmatches⟩ := matches_of_matchLength hrest
    rw [List.mem_reverse, List.mem_range'_1] at hk
    have hprefix := List.takeWhile_prefix (l := text) fun x : Bool × α => p x.2
    have hrun : k ≤ (text.takeWhile fun x => p x.2).length ∧ ∀ m ∈ most, k ≤ m := by
      cases most with
      | none => exact ⟨by simp only [Option.elim] at hk; omega, nofun⟩
      | some m =>
        simp only [Option.elim] at hk
        exact ⟨by omega, fun m' hm => by cases hm; omega⟩
    have hk_le : k ≤ text.length := hrun.1.trans hprefix.length_le
    rw [List.length_drop] at hle
    refine ⟨by omega, ?_⟩
    have htake : text.take (k + n') = text.take k ++ (text.drop k).take n' := List.take_add
    rw [htake, ← List.drop_drop]
    have hlength : (text.take k).length = k := List.length_take_of_le hk_le
    refine .chars (fun x hx => ?_) (by omega) (fun m hm => ?_) hmatches
    swap
    · rw [hlength]
      exact hrun.2 m hm
    have htaken : text.take k = (text.takeWhile fun x => p x.2).take k := by
      rw [List.prefix_iff_eq_take.mp hprefix, List.take_take, Nat.min_eq_left hrun.1]
    rw [htaken] at hx
    exact List.mem_takeWhile_imp (p := fun x : Bool × α => p x.2) (List.mem_of_mem_take hx)

/-- More boundaries only help. -/
theorem Matches.mono {span' : List (Bool × α)} {ending' : Bool} (h : Matches atoms span ending)
    (hspan : List.Forall₂ (fun x y => x.2 = y.2 ∧ (x.1 = true → y.1 = true)) span span')
    (hending : ending = true → ending' = true) : Matches atoms span' ending' := by
  induction h generalizing span' with
  | nil =>
    cases hspan
    exact .nil
  | boundary hmark _ ih =>
    refine .boundary ?_ (ih hspan hending)
    cases hspan with
    | nil => exact hending hmark
    | cons hx _ => exact hx.2 hmark
  | chars hp hleast hmost _ ih =>
    obtain ⟨taken', rest', htaken, hrest, rfl⟩ := exists_append_of_forall₂ hspan
    refine .chars (fun x hx => ?_) (htaken.length_eq ▸ hleast)
      (fun m hm => htaken.length_eq ▸ hmost m hm) (ih hrest hending)
    obtain ⟨y, hy, heq, -⟩ := exists_of_mem_forall₂ htaken hx
    rw [← heq]
    exact hp y hy

end Matching

/-! ## Patterns -/

/-- A pattern between two word boundaries, which does not match the empty text. -/
structure Pattern (α : Type*) where
  inner : List (Atom α)
  consumes : inner.any Atom.consumes = true

/-- What is put in the place of a match. -/
structure Label (α : Type*) where
  start : α
  inner : List α
  stop : α

def Label.text {α : Type*} (label : Label α) : List α :=
  label.start :: (label.inner ++ [label.stop])

namespace Pattern

variable {α : Type*} (word : α → Bool)

def atoms (P : Pattern α) : List (Atom α) := .boundary :: (P.inner ++ [.boundary])

/-- The pattern matches somewhere in the text. -/
def Occurs (P : Pattern α) (text : List α) : Prop :=
  ∃ left span rest, marks word false text = left ++ (span ++ rest)
    ∧ Matches P.atoms span (headMark rest (endMark word false text))

/-- No match of the pattern reaches into the label: the pattern has no character for its ends, and
needs one that is not inside. -/
structure Avoids (P : Pattern α) (label : Label α) : Prop where
  start : ∀ atom ∈ P.inner, atom.admits label.start = false
  stop : ∀ atom ∈ P.inner, atom.admits label.stop = false
  inner : ∃ atom ∈ P.inner, atom.consumes = true ∧ ∀ x ∈ label.inner, atom.admits x = false

/-- A piece of a text in which a pattern is replaced. -/
inductive Piece (α : Type*)
  | kept (x : Bool × α)
  | replaced (span : List (Bool × α))

def Piece.shown (label : Label α) : Piece α → List α
  | .kept x => [x.2]
  | .replaced _ => label.text

/-- The pieces of a text, of which the first characters belong to the match before. -/
def pieces (P : Pattern α) (ending : Bool) : ℕ → List (Bool × α) → List (Piece α)
  | _, [] => []
  | n + 1, _ :: text => pieces P ending n text
  | 0, x :: text =>
    match matchLength P.atoms (x :: text) ending with
    | some (n + 1) => .replaced ((x :: text).take (n + 1)) :: pieces P ending n text
    | _ => .kept x :: pieces P ending 0 text

def substitute (P : Pattern α) (label : Label α) (text : List α) : List α :=
  (P.pieces (endMark word false text) 0 (marks word false text)).flatMap (Piece.shown label)

section Matches

variable {P : Pattern α} {span rest text : List (Bool × α)} {ending : Bool}

theorem ending_of_matches_inner {ended : Bool} : ∀ {inner : List (Atom α)}
    {span : List (Bool × α)}, Matches (inner ++ [.boundary]) span ended → ended = true
  | [], _, .boundary hmark .nil => hmark
  | .boundary :: _, _, .boundary _ h => ending_of_matches_inner h
  | .chars _ _ _ :: _, _, .chars _ _ _ h => ending_of_matches_inner h

theorem ending_of_matches (h : Matches P.atoms span ending) : ending = true := by
  cases h with
  | boundary _ h => exact ending_of_matches_inner h

theorem headMark_of_matches (h : Matches P.atoms span ending) : headMark span ending = true := by
  cases h with
  | boundary hmark _ => exact hmark

/-- Each character of a match is of one of the classes. -/
theorem admits_of_mem {x : Bool × α} : ∀ {atoms : List (Atom α)} {span : List (Bool × α)},
    Matches atoms span ending → x ∈ span → ∃ atom ∈ atoms, atom.admits x.2 = true
  | _, _, .boundary _ h, hx => by
    obtain ⟨atom, hatom, hadmits⟩ := admits_of_mem h hx
    exact ⟨atom, List.mem_cons_of_mem _ hatom, hadmits⟩
  | _, _, .chars hp _ _ h, hx => by
    rcases List.mem_append.mp hx with hx | hx
    · exact ⟨_, List.mem_cons_self, hp x hx⟩
    · obtain ⟨atom, hatom, hadmits⟩ := admits_of_mem h hx
      exact ⟨atom, List.mem_cons_of_mem _ hatom, hadmits⟩

/-- An atom that consumes has a character in each match. -/
theorem exists_admitted {atom : Atom α} (hconsumes : atom.consumes = true) :
    ∀ {atoms : List (Atom α)} {span : List (Bool × α)}, atom ∈ atoms →
      Matches atoms span ending → ∃ x ∈ span, atom.admits x.2 = true
  | _, _, hatom, .boundary _ h => by
    rcases List.mem_cons.mp hatom with rfl | hatom
    · cases hconsumes
    · exact exists_admitted hconsumes hatom h
  | _, _, hatom, @Matches.chars _ _ _ _ _ taken _ _ hp hleast _ h => by
    rcases List.mem_cons.mp hatom with rfl | hatom
    · have hpos : 0 < taken.length := lt_of_lt_of_le (of_decide_eq_true hconsumes) hleast
      obtain ⟨x, hx⟩ := List.exists_mem_of_length_pos hpos
      exact ⟨x, List.mem_append_left _ hx, hp x hx⟩
    · obtain ⟨x, hx, hadmits⟩ := exists_admitted hconsumes hatom h
      exact ⟨x, List.mem_append_right _ hx, hadmits⟩

theorem mem_atoms {atom : Atom α} (h : atom ∈ P.inner) : atom ∈ P.atoms :=
  List.mem_cons_of_mem _ (List.mem_append_left _ h)

theorem admits_inner_of_mem {x : Bool × α} (h : Matches P.atoms span ending) (hx : x ∈ span) :
    ∃ atom ∈ P.inner, atom.admits x.2 = true := by
  obtain ⟨atom, hatom, hadmits⟩ := admits_of_mem h hx
  simp only [atoms, List.mem_cons, List.mem_append, List.not_mem_nil, or_false] at hatom
  rcases hatom with rfl | hatom | rfl
  · cases hadmits
  · exact ⟨atom, hatom, hadmits⟩
  · cases hadmits

theorem ne_nil_of_matches (h : Matches P.atoms span ending) : span ≠ [] := by
  obtain ⟨atom, hatom, hconsumes⟩ := List.any_eq_true.mp P.consumes
  obtain ⟨x, hx, -⟩ := exists_admitted hconsumes (mem_atoms hatom) h
  exact List.ne_nil_of_mem hx

end Matches

/-! ## A scan -/

/-- How the pieces of a text come about. -/
inductive Scanned (P : Pattern α) (ending : Bool) : List (Bool × α) → List (Piece α) → Prop
  | nil : Scanned P ending [] []
  | kept {x : Bool × α} {text : List (Bool × α)} {pieces : List (Piece α)} :
    matchLength P.atoms (x :: text) ending = none → Scanned P ending text pieces →
    Scanned P ending (x :: text) (.kept x :: pieces)
  | replaced {span rest : List (Bool × α)} {pieces : List (Piece α)} :
    Matches P.atoms span (headMark rest ending) → Scanned P ending rest pieces →
    Scanned P ending (span ++ rest) (.replaced span :: pieces)

section Scan

variable {P : Pattern α} {ending : Bool}

theorem matchLength_ne_zero {text : List (Bool × α)} :
    matchLength P.atoms text ending ≠ some 0 := by
  intro h
  exact ne_nil_of_matches (matches_of_matchLength h).2 rfl

theorem pieces_drop : ∀ (n : ℕ) (text : List (Bool × α)),
    P.pieces ending n text = P.pieces ending 0 (text.drop n)
  | 0, _ => rfl
  | _ + 1, [] => rfl
  | n + 1, _ :: text => by
    rw [pieces, pieces_drop n text, List.drop_succ_cons]

theorem scanned_pieces (text : List (Bool × α)) :
    Scanned P ending text (P.pieces ending 0 text) := by
  induction hn : text.length using Nat.strong_induction_on generalizing text with
  | _ n ih =>
    subst hn
    cases text with
    | nil => exact .nil
    | cons x text =>
      rw [pieces]
      split
      · next k hk =>
        obtain ⟨hle, hmatches⟩ := matches_of_matchLength hk
        rw [pieces_drop]
        have hscan := Scanned.replaced hmatches
          (ih _ (by simp only [List.drop_succ_cons, List.length_drop, List.length_cons]; omega)
            ((x :: text).drop (k + 1)) rfl)
        rw [List.take_append_drop] at hscan
        exact hscan
      · next hk =>
        refine .kept ?_ (ih _ (by simp) text rfl)
        rcases hlength : matchLength P.atoms (x :: text) ending with _ | _ | k
        · rfl
        · exact absurd hlength matchLength_ne_zero
        · exact absurd hlength (hk k)

end Scan

/-! ## What occurs after a substitution -/

/-- Before the rest of a text, which has its boundaries from the old text, there is the same kind of
character in the new one, or else the old text has a boundary there. -/
def Linked (before : Bool) (ending : Bool) (text : List (Bool × α)) : Prop :=
  ∃ before' chars, text = marks word before' chars ∧ ending = endMark word before' chars
    ∧ (before = before' ∨ headMark text ending = true)

section Substitute

variable {word} {P Q : Pattern α} {label : Label α} {before ending : Bool}
  {text : List (Bool × α)} {pieces : List (Piece α)}

theorem Linked.tail {x : Bool × α} (h : Linked word before ending (x :: text)) :
    Linked word (word x.2) ending text := by
  obtain ⟨before', chars, htext, hending, -⟩ := h
  cases chars with
  | nil => cases htext
  | cons y chars =>
    rw [marks] at htext
    obtain ⟨rfl, rfl⟩ := List.cons.inj htext
    exact ⟨word y, chars, rfl, hending, .inl rfl⟩

theorem Linked.append {span rest : List (Bool × α)} (h : Linked word before ending (span ++ rest))
    (hmark : headMark rest ending = true) (before' : Bool) :
    Linked word before' ending rest := by
  obtain ⟨old, chars, htext, hending, -⟩ := h
  obtain ⟨left, right, rfl, rfl, rfl⟩ : ∃ left right, chars = left ++ right
      ∧ span = marks word old left ∧ rest = marks word (endMark word old left) right := by
    refine ⟨chars.take span.length, chars.drop span.length,
      (List.take_append_drop ..).symm, ?_⟩
    have hsplit := htext
    rw [← List.take_append_drop span.length chars, marks_append] at hsplit
    have hlength : span.length = (marks word old (chars.take span.length)).length := by
      have hchars := congrArg List.length (map_snd_marks word old (chars.take span.length))
      have htotal := congrArg List.length htext
      have hall := congrArg List.length (map_snd_marks word old chars)
      rw [List.length_map, List.length_take] at hchars
      rw [List.length_map] at hall
      rw [List.length_append] at htotal
      omega
    exact List.append_inj hsplit hlength
  exact ⟨_, right, rfl, by rw [hending, endMark_append], .inr hmark⟩

/-- A boundary of the new text is one of the old text. -/
theorem Scanned.headMark_le (h : Scanned P ending text pieces)
    (hlinked : Linked word before ending text)
    (hmark : headMark (marks word before (pieces.flatMap (Piece.shown label)))
      (endMark word before (pieces.flatMap (Piece.shown label))) = true) :
    headMark text ending = true := by
  obtain ⟨before', chars, htext, hending, rfl | hold⟩ := hlinked
  · cases h with
    | nil =>
      cases chars with
      | nil => exact hending ▸ hmark
      | cons => cases htext
    | @kept x =>
      cases chars with
      | nil => cases htext
      | cons y chars =>
        rw [marks] at htext
        obtain ⟨rfl, rfl⟩ := List.cons.inj htext
        exact hmark
    | replaced hmatches _ =>
      rw [headMark_append]
      exact headMark_of_matches hmatches
  · exact hold

/-- A span of the new text without the start of a label stands in the old text. -/
theorem Scanned.exists_span : ∀ {span rest : List (Bool × α)} {before : Bool}
    {text : List (Bool × α)} {pieces : List (Piece α)}, Scanned P ending text pieces →
    Linked word before ending text →
    marks word before (pieces.flatMap (Piece.shown label)) = span ++ rest →
    (∀ x ∈ span, x.2 ≠ label.start) →
    ∃ span' rest', text = span' ++ rest'
      ∧ List.Forall₂ (fun x y => x.2 = y.2 ∧ (x.1 = true → y.1 = true)) span span'
      ∧ (headMark rest (endMark word before (pieces.flatMap (Piece.shown label))) = true →
        headMark rest' ending = true)
  | [], rest, before, text, pieces, h, hlinked, hmarks, _ => by
    refine ⟨[], text, rfl, .nil, fun hmark => ?_⟩
    rw [List.nil_append] at hmarks
    rw [← hmarks] at hmark
    exact h.headMark_le hlinked hmark
  | x :: span, rest, before, text, pieces, h, hlinked, hmarks, hstart => by
    have hle : (marks word before (pieces.flatMap (Piece.shown label))) = x :: (span ++ rest) →
        x.1 = true → headMark text ending = true := by
      intro hmarks hmark
      refine h.headMark_le (show Linked word before ending text from hlinked)
        (show headMark (marks word before (pieces.flatMap (Piece.shown label))) _ = true from ?_)
      rw [hmarks]
      exact hmark
    cases h with
    | nil => cases hmarks
    | @kept y text pieces hnone h =>
      rw [List.flatMap_cons, Piece.shown, List.singleton_append, marks, List.cons_append] at hmarks
      obtain ⟨rfl, htail⟩ := List.cons.inj hmarks
      obtain ⟨span', rest', rfl, hspan, hrest⟩ := exists_span h hlinked.tail htail
        fun z hz => hstart z (List.mem_cons_of_mem _ hz)
      exact ⟨y :: span', rest', rfl, .cons ⟨rfl, hle hmarks⟩ hspan, hrest⟩
    | replaced hmatches h =>
      rw [List.flatMap_cons, Piece.shown, Label.text, List.cons_append, marks,
        List.cons_append] at hmarks
      obtain ⟨rfl, -⟩ := List.cons.inj hmarks
      exact absurd rfl (hstart _ List.mem_cons_self)

/-- What starts in a label and has neither of its ends is inside of it. -/
theorem Label.subset_inner {left span rest after : List α}
    (h : label.text ++ after = left ++ (span ++ rest)) (hleft : left.length < label.text.length)
    (hne : span ≠ []) (hstart : label.start ∉ span) (hstop : label.stop ∉ span) :
    span ⊆ label.inner := by
  obtain ⟨y, span, rfl⟩ := List.exists_cons_of_ne_nil hne
  rw [Label.text, List.cons_append] at h
  cases left with
  | nil =>
    obtain ⟨rfl, -⟩ := List.cons.inj h
    exact absurd List.mem_cons_self hstart
  | cons z left =>
    obtain ⟨-, htail⟩ := List.cons.inj h
    rw [List.append_assoc] at htail
    rcases List.append_eq_append_iff.mp htail
      with ⟨middle, rfl, hmiddle⟩ | ⟨middle, hinner, hmiddle⟩
    · cases middle with
      | nil =>
        obtain ⟨rfl, -⟩ :=
          List.cons.inj (show label.stop :: after = y :: (span ++ rest) from hmiddle)
        exact absurd List.mem_cons_self hstop
      | cons w middle =>
        simp only [Label.text, List.length_cons, List.length_append, List.length_nil] at hleft
        omega
    · rcases List.append_eq_append_iff.mp hmiddle with ⟨more, rfl, -⟩ | ⟨more, hspan, hmore⟩
      · rw [hinner]
        exact fun w hw => List.mem_append_right _ (List.mem_append_left _ hw)
      · cases more with
        | nil =>
          rw [hinner, hspan, List.append_nil]
          exact List.subset_append_right _ _
        | cons w more =>
          obtain ⟨rfl, -⟩ :=
            List.cons.inj (show label.stop :: after = w :: (more ++ rest) from hmore)
          exact absurd (hspan ▸ List.mem_append_right _ List.mem_cons_self) hstop

/-- A match in the new text is one in the old text, at a place where none was replaced. -/
theorem Scanned.exists_match {ended : Bool} (hQ : Q.Avoids label) :
    ∀ {left : List (Bool × α)} {span rest : List (Bool × α)} {before : Bool}
      {text : List (Bool × α)} {pieces : List (Piece α)}, Scanned P ending text pieces →
      Linked word before ending text →
      marks word before (pieces.flatMap (Piece.shown label)) = left ++ (span ++ rest) →
      ended = headMark rest (endMark word before (pieces.flatMap (Piece.shown label))) →
      Matches Q.atoms span ended →
      ∃ left' span' rest', text = left' ++ (span' ++ rest')
        ∧ Matches Q.atoms span' (headMark rest' ending)
        ∧ matchLength P.atoms (span' ++ rest') ending = none := by
  intro left span rest before text pieces h
  have havoid {x : Bool × α} {ended : Bool} {span : List (Bool × α)}
      (hmatches : Matches Q.atoms span ended) (hx : x ∈ span) :
      x.2 ≠ label.start ∧ x.2 ≠ label.stop := by
    obtain ⟨atom, hatom, hadmits⟩ := admits_inner_of_mem hmatches hx
    refine ⟨fun heq => ?_, fun heq => ?_⟩ <;> rw [heq] at hadmits
    · exact absurd hadmits (by rw [hQ.start atom hatom]; exact Bool.false_ne_true)
    · exact absurd hadmits (by rw [hQ.stop atom hatom]; exact Bool.false_ne_true)
  induction h generalizing left before with
  | nil =>
    intro _ hmarks _ hmatches
    have hnil := congrArg List.length hmarks
    have hne := List.length_pos_of_ne_nil (ne_nil_of_matches hmatches)
    simp only [List.flatMap_nil, marks, List.length_nil, List.length_append] at hnil
    omega
  | @kept x text pieces hnone h ih =>
    intro hlinked hmarks hended hmatches
    cases left with
    | nil =>
      obtain ⟨span', rest', htext, hspan, hrest⟩ := (Scanned.kept hnone h).exists_span hlinked
        (show _ = span ++ rest from hmarks) fun y hy => (havoid hmatches hy).1
      refine ⟨[], span', rest', htext, hmatches.mono hspan fun h => hrest (hended ▸ h), ?_⟩
      rw [← htext]
      exact hnone
    | cons y left =>
      rw [List.flatMap_cons, Piece.shown, List.singleton_append, marks, List.cons_append] at hmarks
      obtain ⟨-, htail⟩ := List.cons.inj hmarks
      obtain ⟨left', span', rest', rfl, hfound⟩ := ih hlinked.tail htail hended hmatches
      exact ⟨x :: left', span', rest', rfl, hfound⟩
  | @replaced old rest' pieces hreplaced h ih =>
    intro hlinked hmarks hended hmatches
    rw [List.flatMap_cons, Piece.shown] at hmarks hended
    rcases Nat.lt_or_ge left.length label.text.length with hlt | hge
    · have hchars := congrArg (List.map Prod.snd) hmarks
      rw [map_snd_marks, List.map_append, List.map_append] at hchars
      have hsubset := Label.subset_inner hchars (by rwa [List.length_map])
        (List.map_eq_nil_iff.not.mpr (ne_nil_of_matches hmatches))
        (fun hmem => by
          obtain ⟨x, hx, heq⟩ := List.mem_map.mp hmem
          exact (havoid hmatches hx).1 heq)
        (fun hmem => by
          obtain ⟨x, hx, heq⟩ := List.mem_map.mp hmem
          exact (havoid hmatches hx).2 heq)
      obtain ⟨atom, hatom, hconsumes, hnone⟩ := hQ.inner
      obtain ⟨x, hx, hadmits⟩ := exists_admitted hconsumes (mem_atoms hatom) hmatches
      have hfalse := hnone x.2 (hsubset (List.mem_map_of_mem hx))
      rw [hfalse] at hadmits
      cases hadmits
    · rw [marks_append] at hmarks
      obtain ⟨more, hleft, htail⟩ : ∃ more, left = marks word before label.text ++ more
          ∧ marks word (endMark word before label.text) (pieces.flatMap (Piece.shown label))
            = more ++ (span ++ rest) := by
        have hlength : (marks word before label.text).length = label.text.length := by
          rw [← List.length_map (f := Prod.snd), map_snd_marks]
        rcases List.append_eq_append_iff.mp hmarks with ⟨more, hleft, htail⟩ | ⟨more, hlabel, htail⟩
        · exact ⟨more, hleft, htail⟩
        · have hnil : more = [] := by
            rw [← List.length_eq_zero_iff]
            have := congrArg List.length hlabel
            rw [List.length_append] at this
            omega
          rw [hnil, List.append_nil] at hlabel
          rw [hnil, List.nil_append] at htail
          exact ⟨[], by rw [hlabel, List.append_nil], htail.symm⟩
      rw [endMark_append] at hended
      obtain ⟨left', span', rest'', htext, hfound⟩ :=
        ih (hlinked.append (ending_of_matches hreplaced) _) htail hended hmatches
      exact ⟨old ++ left', span', rest'', by rw [htext, List.append_assoc], hfound⟩

end Substitute

section Results

variable {word} {P Q : Pattern α} {label : Label α} {text : List α}

theorem linked_marks : Linked word false (endMark word false text) (marks word false text) :=
  ⟨false, text, rfl, rfl, .inl rfl⟩

/-- What is replaced does not occur any more. -/
theorem not_occurs_substitute (hP : P.Avoids label) :
    ¬ P.Occurs word (P.substitute word label text) := by
  rintro ⟨left, span, rest, hmarks, hmatches⟩
  obtain ⟨left', span', rest', -, hmatches', hnone⟩ :=
    (scanned_pieces (marks word false text)).exists_match hP linked_marks hmarks rfl hmatches
  exact matchLength_ne_none hmatches' hnone

/-- Nothing new occurs. -/
theorem occurs_of_occurs_substitute (hQ : Q.Avoids label)
    (h : Q.Occurs word (P.substitute word label text)) : Q.Occurs word text := by
  obtain ⟨left, span, rest, hmarks, hmatches⟩ := h
  obtain ⟨left', span', rest', htext, hmatches', -⟩ :=
    (scanned_pieces (marks word false text)).exists_match hQ linked_marks hmarks rfl hmatches
  exact ⟨left', span', rest', htext, hmatches'⟩

/-- A text in which the pattern does not occur stays as it is. -/
theorem substitute_of_not_occurs (h : ¬ P.Occurs word text) :
    P.substitute word label text = text := by
  have hscan : Scanned P (endMark word false text) (marks word false text) _ := scanned_pieces _
  have hkept {left old : List (Bool × α)} {pieces : List (Piece α)}
      (hscan : Scanned P (endMark word false text) old pieces)
      (hold : marks word false text = left ++ old) :
      pieces.flatMap (Piece.shown label) = old.map Prod.snd := by
    induction hscan generalizing left with
    | nil => rfl
    | @kept x old pieces _ _ ih =>
      rw [List.flatMap_cons, Piece.shown, List.singleton_append, List.map_cons,
        ih (show marks word false text = (left ++ [x]) ++ old by
          rw [hold, List.append_assoc, List.singleton_append])]
    | @replaced span rest _ hmatches _ _ => exact absurd ⟨left, span, rest, hold, hmatches⟩ h
  unfold substitute
  rw [hkept hscan (show marks word false text = [] ++ _ from rfl), map_snd_marks]

end Results

/-! ## Several patterns -/

/-- The rules one after another. -/
def substituteAll (rules : List (Pattern α × Label α)) (text : List α) : List α :=
  rules.foldl (fun text rule => rule.1.substitute word rule.2 text) text

section Rules

variable {word} {P : Pattern α}

theorem occurs_of_occurs_substituteAll : ∀ {rules : List (Pattern α × Label α)} {text : List α},
    (∀ rule ∈ rules, P.Avoids rule.2) → P.Occurs word (substituteAll word rules text) →
      P.Occurs word text
  | [], _, _, h => h
  | rule :: _, _, havoids, h =>
    occurs_of_occurs_substitute (havoids rule List.mem_cons_self)
      (occurs_of_occurs_substituteAll
        (fun rule' hrule' => havoids rule' (List.mem_cons_of_mem _ hrule')) h)

/-- None of the patterns occurs, if none reaches into a label. -/
theorem not_occurs_substituteAll : ∀ {rules : List (Pattern α × Label α)} {text : List α},
    (∀ rule ∈ rules, ∀ rule' ∈ rules, rule.1.Avoids rule'.2) →
      ∀ rule ∈ rules, ¬ rule.1.Occurs word (substituteAll word rules text)
  | first :: rules, text, havoids, rule, hrule => by
    have hrest : ∀ rule ∈ rules, ∀ rule' ∈ rules, rule.1.Avoids rule'.2 := fun rule hrule rule' h =>
      havoids rule (List.mem_cons_of_mem _ hrule) rule' (List.mem_cons_of_mem _ h)
    rcases List.mem_cons.mp hrule with rfl | hrule
    · intro h
      exact not_occurs_substitute (havoids rule List.mem_cons_self rule List.mem_cons_self)
        (occurs_of_occurs_substituteAll
          (fun rule' h' => havoids rule List.mem_cons_self rule' (List.mem_cons_of_mem _ h')) h)
    · exact not_occurs_substituteAll hrest rule hrule

theorem substituteAll_of_not_occurs {text : List α} : ∀ {rules : List (Pattern α × Label α)},
    (∀ rule ∈ rules, ¬ rule.1.Occurs word text) → substituteAll word rules text = text
  | [], _ => rfl
  | rule :: rules, h => by
    rw [substituteAll, List.foldl_cons, substitute_of_not_occurs (h rule List.mem_cons_self)]
    exact substituteAll_of_not_occurs fun rule' hrule' => h rule' (List.mem_cons_of_mem _ hrule')

end Rules

end Pattern
