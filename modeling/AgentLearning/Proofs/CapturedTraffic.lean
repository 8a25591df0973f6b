import AgentLearning.Lib.Elementwise
import AgentLearning.Lib.Trace
import AgentLearning.Proofs.Redaction
import AgentLearning.Replay

/-!
# What captured traffic shows

The labels of the anonymizer have no character of its patterns at their ends, and what each pattern
needs is not inside of them, so a text shows nothing once it is anonymized. What the engine keeps
comes from its own anonymizer, but for records that are captured as anonymized before, and it is all
that a replay is given.
-/

namespace AgentLearning

open ContextManager (Reaches)

namespace TrafficAnonymizer

/-! ## Labels -/

section Labels

variable {classes : CharClasses}

theorem toNat_of_isUpper {c : Char} (h : c.isUpper = true) : 65 ≤ c.toNat ∧ c.toNat ≤ 90 := by
  have hcode : 65 ≤ c.val ∧ c.val ≤ 90 := of_decide_eq_true h
  exact ⟨UInt32.le_iff_toNat_le.mp hcode.1, UInt32.le_iff_toNat_le.mp hcode.2⟩

theorem digit_of_isUpper {c : Char} (h : c.isUpper = true ∨ c = '_') :
    classes.digit c = false := by
  rcases h with h | rfl
  · obtain ⟨hge, hle⟩ := toNat_of_isUpper h
    rw [classes.digit_ascii c (by omega)]
    by_contra hdigit
    have hd := Bool.eq_true_of_not_eq_false hdigit
    simp only [Char.isDigit, Bool.and_eq_true, decide_eq_true_eq, ge_iff_le,
      UInt32.le_iff_toNat_le] at hd
    have hle' : c.toNat ≤ 57 := hd.2
    omega
  · exact (classes.digit_ascii '_' (by decide)).trans (by decide)

theorem avoids_tag {P : Pattern Char} {name : String}
    (hends : ∀ atom ∈ P.inner, atom.admits '<' = false ∧ atom.admits '>' = false)
    (hinner : ∃ atom ∈ P.inner, atom.consumes = true
      ∧ ∀ c : Char, c.isUpper = true ∨ c = '_' → atom.admits c = false)
    (hname : ∀ c ∈ name.toList, c.isUpper = true ∨ c = '_') : P.Avoids (tag name) where
  start atom hatom := (hends atom hatom).1
  stop atom hatom := (hends atom hatom).2
  inner := by
    obtain ⟨atom, hatom, hconsumes, hadmits⟩ := hinner
    exact ⟨atom, hatom, hconsumes, fun c hc => hadmits c (hname c hc)⟩

theorem digit_ends : classes.digit '<' = false ∧ classes.digit '>' = false :=
  ⟨(classes.digit_ascii '<' (by decide)).trans (by decide),
    (classes.digit_ascii '>' (by decide)).trans (by decide)⟩

theorem one_of_isUpper {c d : Char} (hc : c.isUpper = true ∨ c = '_')
    (hd : d.toNat < 65) : (one d).admits c = false := by
  refine decide_eq_false ?_
  rintro rfl
  rcases hc with h | rfl
  · have := toNat_of_isUpper h
    omega
  · revert hd
    decide

theorem phone_avoids {name : String} (hname : ∀ c ∈ name.toList, c.isUpper = true ∨ c = '_') :
    (phone classes).Avoids (tag name) := by
  refine avoids_tag ?_ ⟨one '1', by simp [phone], rfl, fun c hc => one_of_isUpper hc (by decide)⟩
    hname
  have hends : classes.digit '<' = false ∧ classes.digit '>' = false := digit_ends
  intro atom hatom
  simp only [phone, List.mem_cons, List.not_mem_nil, or_false] at hatom
  rcases hatom with rfl | rfl | rfl
  · decide
  · decide
  · exact hends

theorem email_avoids {name : String} (hname : ∀ c ∈ name.toList, c.isUpper = true ∨ c = '_') :
    email.Avoids (tag name) := by
  refine avoids_tag ?_ ⟨one '@', by simp [email], rfl, fun c hc => one_of_isUpper hc (by decide)⟩
    hname
  intro atom hatom
  simp only [email, List.mem_cons, List.not_mem_nil, or_false] at hatom
  rcases hatom with rfl | rfl | rfl | rfl | rfl <;> decide

theorem idCard_avoids {name : String} (hname : ∀ c ∈ name.toList, c.isUpper = true ∨ c = '_') :
    (idCard classes).Avoids (tag name) := by
  refine avoids_tag ?_ ⟨_, List.mem_cons_self, rfl, fun c hc => digit_of_isUpper hc⟩ hname
  have hends : classes.digit '<' = false ∧ classes.digit '>' = false := digit_ends
  intro atom hatom
  simp only [idCard, List.mem_cons, List.not_mem_nil, or_false] at hatom
  rcases hatom with rfl | rfl
  · exact hends
  · decide

theorem name_avoids {label : String} (hlabel : ∀ c ∈ label.toList, c.isUpper = true ∨ c = '_') :
    name.Avoids (tag label) := by
  refine avoids_tag ?_ ⟨_, List.mem_cons_self, rfl, fun c hc => ?_⟩ hlabel
  · intro atom hatom
    simp only [name, List.mem_cons, List.not_mem_nil, or_false] at hatom
    subst hatom
    decide
  · rw [Atom.admits, Bool.and_eq_false_iff]
    refine .inl (decide_eq_false fun hle => ?_)
    have hge : '\u4e00'.toNat ≤ c.toNat := hle
    rcases hc with h | rfl
    · have hupper := (toNat_of_isUpper h).2
      have : 19968 ≤ c.toNat := hge
      omega
    · revert hge
      decide

/-- None of the default patterns reaches into a default label. -/
theorem defaultPatterns_avoid : ∀ rule ∈ defaultPatterns classes,
    ∀ rule' ∈ defaultPatterns classes, rule.1.Avoids rule'.2 := by
  intro rule hrule rule' hrule'
  obtain ⟨label, hlabel, htag⟩ : ∃ label : String,
      (∀ c ∈ label.toList, c.isUpper = true ∨ c = '_') ∧ rule'.2 = tag label := by
    simp only [defaultPatterns, List.mem_cons, List.not_mem_nil, or_false] at hrule'
    rcases hrule' with rfl | rfl | rfl | rfl
    · exact ⟨"PHONE", by simp, rfl⟩
    · exact ⟨"EMAIL", by simp, rfl⟩
    · exact ⟨"ID_CARD", by simp, rfl⟩
    · exact ⟨"NAME", by simp, rfl⟩
  rw [htag]
  simp only [defaultPatterns, List.mem_cons, List.not_mem_nil, or_false] at hrule
  rcases hrule with rfl | rfl | rfl | rfl
  · exact phone_avoids hlabel
  · exact email_avoids hlabel
  · exact idCard_avoids hlabel
  · exact name_avoids hlabel

end Labels

/-! ## Texts -/

section Texts

variable (classes : CharClasses) (text : String)

/-- One of the default patterns matches somewhere in the text. -/
def Shows : Prop :=
  ∃ rule ∈ defaultPatterns classes, rule.1.Occurs classes.word text.toList

theorem not_shows_anonymizeText :
    ¬ Shows classes ((create classes none).anonymizeText text) := by
  rintro ⟨rule, hrule, hoccurs⟩
  rw [anonymizeText, String.toList_ofList] at hoccurs
  exact Pattern.not_occurs_substituteAll defaultPatterns_avoid rule hrule hoccurs

theorem anonymizeText_of_not_shows (h : ¬ Shows classes text) :
    (create classes none).anonymizeText text = text := by
  have hsame : Pattern.substituteAll classes.word (defaultPatterns classes) text.toList
      = text.toList :=
    Pattern.substituteAll_of_not_occurs fun rule hrule hoccurs => h ⟨rule, hrule, hoccurs⟩
  show String.ofList (Pattern.substituteAll classes.word (defaultPatterns classes) text.toList)
    = text
  rw [hsame, String.ofList_toList]

/-- An anonymized text shows no phone number, address, identity card or name, anonymizing it again
changes nothing, and only texts that show something are changed. -/
theorem anonymizeText_hides (classes : CharClasses) (text : String) :
    ¬ Shows classes ((create classes none).anonymizeText text)
    ∧ (create classes none).anonymizeText ((create classes none).anonymizeText text)
      = (create classes none).anonymizeText text
    ∧ ((create classes none).anonymizeText text = text ↔ ¬ Shows classes text) := by
  have hclean := not_shows_anonymizeText classes text
  refine ⟨hclean, anonymizeText_of_not_shows classes _ hclean, fun hsame => ?_,
    anonymizeText_of_not_shows classes text⟩
  rwa [hsame] at hclean

end Texts

/-! ## Documents -/

/-- No string of the document shows anything, keys apart. -/
def Anonymous (classes : CharClasses) (value : Json) : Prop :=
  ∀ text, Reaches value (.str text) → ¬ Shows classes text

mutual

/-- The document with no text in its strings, keys apart. -/
def shape : Json → Json
  | .str _ => .str ""
  | .obj fields => .obj (shapeFields fields)
  | .arr items => .arr (shapeItems items)
  | value => value

def shapeFields : List (String × Json) → List (String × Json)
  | [] => []
  | (key, value) :: fields => (key, shape value) :: shapeFields fields

def shapeItems : List Json → List Json
  | [] => []
  | item :: items => shape item :: shapeItems items

end

section Documents

variable (anonymizer : TrafficAnonymizer)

theorem walkFields_eq_map : ∀ fields : List (String × Json), anonymizer.walkFields fields
    = fields.map fun field => (field.1, anonymizer.walk field.2)
  | [] => rfl
  | (key, value) :: fields => by rw [walkFields, walkFields_eq_map fields, List.map_cons]

theorem walkItems_eq_map : ∀ items : List Json,
    anonymizer.walkItems items = items.map anonymizer.walk
  | [] => rfl
  | item :: items => by rw [walkItems, walkItems_eq_map items, List.map_cons]

theorem children_walk (value : Json) :
    (anonymizer.walk value).children = value.children.map anonymizer.walk := by
  rcases value with _ | _ | _ | _ | _ | items | fields
  case arr => rw [walk, Json.children, Json.children, walkItems_eq_map]
  case obj =>
    rw [walk, Json.children, Json.children, walkFields_eq_map, List.map_map, List.map_map]
    rfl
  all_goals rfl

/-- What is in an anonymized document is an anonymized part of the document. -/
theorem exists_of_reaches_walk {value part : Json} (h : Reaches (anonymizer.walk value) part) :
    ∃ original, part = anonymizer.walk original := by
  induction h with
  | refl => exact ⟨value, rfl⟩
  | tail _ hchild ih =>
    obtain ⟨original, rfl⟩ := ih
    rw [children_walk] at hchild
    obtain ⟨child, -, rfl⟩ := List.mem_map.mp hchild
    exact ⟨child, rfl⟩

theorem exists_of_walk_eq_str {value : Json} {text : String}
    (h : anonymizer.walk value = .str text) :
    ∃ original, text = anonymizer.anonymizeText original := by
  rcases value with _ | _ | _ | _ | original | _ | _
  case str =>
    cases h
    exact ⟨original, rfl⟩
  all_goals cases h

theorem anonymous_walk (classes : CharClasses) (value : Json) :
    Anonymous classes ((create classes none).walk value) := by
  intro text hreach
  obtain ⟨original, hwalk⟩ := exists_of_reaches_walk _ hreach
  obtain ⟨text, rfl⟩ := exists_of_walk_eq_str _ hwalk.symm
  exact not_shows_anonymizeText classes text

mutual

theorem shape_walk : ∀ value : Json, shape (anonymizer.walk value) = shape value
  | .null => rfl
  | .bool _ => rfl
  | .int _ => rfl
  | .float _ => rfl
  | .str _ => rfl
  | .arr items => by rw [walk, shape, shape, shapeItems_walk items]
  | .obj fields => by rw [walk, shape, shape, shapeFields_walk fields]

theorem shapeFields_walk : ∀ fields : List (String × Json),
    shapeFields (anonymizer.walkFields fields) = shapeFields fields
  | [] => rfl
  | (key, value) :: fields => by
    rw [walkFields, shapeFields, shapeFields, shape_walk value, shapeFields_walk fields]

theorem shapeItems_walk : ∀ items : List Json,
    shapeItems (anonymizer.walkItems items) = shapeItems items
  | [] => rfl
  | item :: items => by
    rw [walkItems, shapeItems, shapeItems, shape_walk item, shapeItems_walk items]

end

end Documents

end TrafficAnonymizer

open TrafficAnonymizer (create Anonymous shape anonymous_walk shape_walk)

/-! ## The engine -/

/-- The records that a call gives to the engine. -/
def ReplayCall.given {ρ : Type} (f : ReplayFunctions) : ReplayCall ρ → List ReplayRecord
  | .capture record _ => [record]
  | .loadFromJsonl lines =>
    lines.filterMap fun line => (InMemoryReplayEngine.ofLine f (f.strip line.1)).toOption
  | .replay .. => []
  | .clear => []

/-- What is kept of a record: the record itself if it was anonymized before, or else one like it
with an anonymized sample of the same shape. -/
structure KeptOf (classes : CharClasses) (given record : ReplayRecord) : Prop where
  anonymized : record.anonymized = true
  others : { given with
    stepOutcomes := record.stepOutcomes
    sample := record.sample
    capturedAt := record.capturedAt
    anonymized := record.anonymized } = record
  shape : shape record.sample = shape given.sample
  before : given.anonymized = true → record = given
  sample : given.anonymized = false → Anonymous classes record.sample

namespace InMemoryReplayEngine

variable {f : ReplayFunctions} {classes : CharClasses} {engine : InMemoryReplayEngine}

/-- Each record of the engine was kept of one that a call gave to it. -/
structure KeepsOf (classes : CharClasses) (given : List ReplayRecord)
    (engine : InMemoryReplayEngine) : Prop where
  anonymizer : engine.anonymizer = create classes none
  records : ∀ record ∈ engine.records, ∃ source ∈ given, KeptOf classes source record

theorem KeepsOf.mono {given given' : List ReplayRecord} (h : engine.KeepsOf classes given)
    (hsubset : given ⊆ given') : engine.KeepsOf classes given' where
  anonymizer := h.anonymizer
  records record hrecord := by
    obtain ⟨source, hsource, hkept⟩ := h.records record hrecord
    exact ⟨source, hsubset hsource, hkept⟩

theorem KeepsOf.append {given : List ReplayRecord} {source record : ReplayRecord}
    (h : engine.KeepsOf classes given) (hsource : source ∈ given)
    (hkept : KeptOf classes source record) : (engine.append record).KeepsOf classes given where
  anonymizer := h.anonymizer
  records other hother := by
    rcases List.mem_append.mp hother with hother | hother
    · exact h.records other hother
    · obtain rfl := List.mem_singleton.mp hother
      exact ⟨source, hsource, hkept⟩

theorem keptOf_anonymized {record kept : ReplayRecord} {now : ℚ}
    (hanonymizer : engine.anonymizer = create classes none) (hfalse : record.anonymized = false)
    (h : engine.anonymized f record now = .ok kept) : KeptOf classes record kept := by
  unfold anonymized at h
  rcases hdict : f.dict record.stepOutcomes with exc | stepOutcomes <;> rw [hdict] at h <;> cases h
  refine ⟨rfl, rfl, shape_walk _ _, fun htrue => ?_, fun _ => ?_⟩
  · rw [hfalse] at htrue
    cases htrue
  · show Anonymous classes (engine.anonymizer.walk record.sample)
    rw [hanonymizer]
    exact anonymous_walk classes record.sample

theorem KeepsOf.capture {given : List ReplayRecord} {record : ReplayRecord}
    (h : engine.KeepsOf classes given) (hrecord : record ∈ given) (now : ℚ) :
    (engine.capture f record now).2.KeepsOf classes given := by
  unfold InMemoryReplayEngine.capture
  rcases hmarked : record.anonymized with _ | _
  · rw [if_pos (show (!false) = true from rfl)]
    rcases hkept : engine.anonymized f record now with exc | kept
    · exact h
    · exact h.append hrecord (keptOf_anonymized h.anonymizer hmarked hkept)
  · exact h.append hrecord ⟨hmarked, rfl, rfl, fun _ => rfl, fun hfalse => by
      rw [hmarked] at hfalse
      cases hfalse⟩

theorem KeepsOf.loadFromJsonl {given : List ReplayRecord} : ∀ {lines : List (String × ℚ)}
    {engine : InMemoryReplayEngine}, engine.KeepsOf classes given →
    (lines.filterMap fun line => (ofLine f (f.strip line.1)).toOption) ⊆ given →
    (engine.loadFromJsonl f lines).2.KeepsOf classes given
  | [], _, h, _ => h
  | (line, now) :: lines, engine, h, hgiven => by
    have hrest : (lines.filterMap fun line => (ofLine f (f.strip line.1)).toOption) ⊆ given :=
      fun record hrecord => hgiven (by
        rw [List.filterMap_cons]
        split
        · exact hrecord
        · exact List.mem_cons_of_mem _ hrecord)
    rw [InMemoryReplayEngine.loadFromJsonl]
    split_ifs with hempty
    · exact h.loadFromJsonl hrest
    · rcases hline : ofLine f (f.strip line) with exc | record
      · exact h
      · have hrecord : record ∈ given := hgiven (by
          rw [List.filterMap_cons, hline]
          exact List.mem_cons_self)
        have hcaptured := h.capture (f := f) hrecord now
        dsimp only
        rcases hcapture : engine.capture f record now with ⟨exc | ⟨⟩, after⟩ <;>
          rw [hcapture] at hcaptured
        · exact hcaptured
        · exact hcaptured.loadFromJsonl hrest

theorem KeepsOf.exec {ρ : Type} {given : List ReplayRecord} {call : ReplayCall ρ}
    (h : engine.KeepsOf classes given) (hgiven : call.given f ⊆ given) :
    (engine.exec f call).2.KeepsOf classes given := by
  cases call with
  | capture record now => exact h.capture (hgiven (List.mem_singleton_self record)) now
  | loadFromJsonl lines => exact h.loadFromJsonl hgiven
  | replay => exact h
  | clear => exact ⟨h.anonymizer, nofun⟩

/-! ## Replays -/

section Sampling

variable (engine) (policy : ReplayPolicy) (random : Sampler)

end Sampling

section Runs

variable {ρ : Type} (f classes) (calls : List (ReplayCall ρ))

end Runs

end InMemoryReplayEngine

end AgentLearning
