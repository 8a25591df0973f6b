import AgentLearning.Lib.FoldBy
import AgentLearning.Lib.Ranking
import AgentLearning.Metrics

/-!
# Metric series

A series is stored under the text of its name and its labels, which does not escape anything. The
order of the labels does not matter, but different series may have one text: a name that has a brace
in it may end where the labels of another series begin, and labels with a comma or an equals sign in
them may read like others. Only such calls mix.
-/

namespace AgentLearning

/-- The labels, where an absent set is an empty one. -/
def labelsOf (labels : Option (Dict String String)) : Dict String String := labels.getD ∅

theorem labelKey_eq (name : String) (labels : Option (Dict String String)) :
    labelKey name labels = if (labelsOf labels).entries = [] then name
      else name ++ "\x7b" ++ labelText (labelsOf labels) ++ "\x7d" := by
  unfold labelKey labelsOf
  rcases labels with _ | labels <;> simp

/-! ## Label sets -/

/-- The label sets are equal as maps. -/
def SameLabels (labels labels' : Option (Dict String String)) : Prop :=
  ∀ k, (labelsOf labels).get? k = (labelsOf labels').get? k

instance (labels labels' : Option (Dict String String)) : Decidable (SameLabels labels labels') :=
  decidable_of_iff (∀ k ∈ (labelsOf labels).keys ++ (labelsOf labels').keys,
      (labelsOf labels).get? k = (labelsOf labels').get? k) <| by
    refine ⟨fun h k => ?_, fun h k _ => h k⟩
    by_cases hk : k ∈ (labelsOf labels).keys ++ (labelsOf labels').keys
    · exact h k hk
    · simp only [List.mem_append, Dict.mem_keys_iff, not_or, Option.not_isSome_iff_eq_none] at hk
      rw [hk.1, hk.2]

theorem labelText_congr {labels labels' : Dict String String}
    (h : ∀ k, labels.get? k = labels'.get? k) : labelText labels = labelText labels' := by
  unfold labelText
  rw [insertionSort_eq_of_perm
    (fun a _ b _ hab hba => toLex.injective (le_antisymm hab hba)) (Dict.entries_perm h)]

theorem SameLabels.entries_eq_nil_iff {labels labels' : Option (Dict String String)}
    (h : SameLabels labels labels') :
    (labelsOf labels).entries = [] ↔ (labelsOf labels').entries = [] := by
  rw [← List.length_eq_zero_iff, (Dict.entries_perm h).length_eq, List.length_eq_zero_iff]

/-- The order of the labels does not matter. -/
theorem labelKey_congr {labels labels' : Option (Dict String String)}
    (h : SameLabels labels labels') (name : String) :
    labelKey name labels = labelKey name labels' := by
  rw [labelKey_eq, labelKey_eq, if_congr h.entries_eq_nil_iff rfl (by rw [labelText_congr h])]

namespace MetricCall

variable (call call' : MetricCall)

/-- The calls name the same series. -/
def SameSeries : Prop :=
  call.kind = call'.kind ∧ call.name = call'.name ∧ SameLabels call.labels call'.labels

instance : Decidable (SameSeries call call') := inferInstanceAs (Decidable (_ ∧ _))

def key : String := labelKey call.name call.labels

def Labelled : Prop := (labelsOf call.labels).entries ≠ []

def text : String := labelText (labelsOf call.labels)

/-- The calls name different series, and the text of the one reads like that of the other. -/
inductive Misread : Prop
  /-- The name without labels is that of the other, with its labels in braces. -/
  | plain (h : ¬ call.Labelled) (h' : call'.Labelled)
    (hname : call.name = call'.name ++ "\x7b" ++ call'.text ++ "\x7d")
  /-- The labels are different, but written out they are the same. -/
  | text (h : call.Labelled) (h' : call'.Labelled) (hname : call.name = call'.name)
    (htext : call.text = call'.text) (hlabels : ¬ SameLabels call.labels call'.labels)
  /-- The name of the other goes on with a brace and what stands first in the labels. -/
  | shifted (w : String) (h : call.Labelled) (h' : call'.Labelled)
    (hname : call'.name = call.name ++ "\x7b" ++ w) (htext : call.text = w ++ "\x7b" ++ call'.text)

variable {call call'}

theorem key_of_labelled (h : call.Labelled) :
    call.key = call.name ++ "\x7b" ++ call.text ++ "\x7d" := by
  rw [key, labelKey_eq, if_neg h]
  rfl

theorem key_of_not_labelled (h : ¬ call.Labelled) : call.key = call.name := by
  rw [key, labelKey_eq, if_pos (not_not.mp h)]

theorem Misread.key_eq (h : Misread call call') : call.key = call'.key := by
  rcases h with ⟨h, h', hname⟩ | ⟨h, h', hname, htext, -⟩ | ⟨w, h, h', hname, htext⟩
  · rw [key_of_not_labelled h, key_of_labelled h', hname]
  · rw [key_of_labelled h, key_of_labelled h', hname, htext]
  · rw [key_of_labelled h, key_of_labelled h', hname, htext]
    simp only [String.append_assoc]

theorem SameSeries.key_eq (h : SameSeries call call') : call.key = call'.key := by
  unfold key
  rw [h.2.1, labelKey_congr h.2.2]

/-- A name is not the beginning of itself. -/
theorem ne_append_brace (s w : String) : s ≠ s ++ "\x7b" ++ w := by
  intro h
  have hlength := congrArg String.length h
  simp only [String.length_append] at hlength
  have hbrace : "\x7b".length = 1 := by decide
  omega

theorem Misread.not_sameSeries (h : Misread call call') : ¬ SameSeries call call' := by
  rintro ⟨-, hname, hlabels⟩
  rcases h with ⟨h, h', -⟩ | ⟨-, -, -, -, hdiffer⟩ | ⟨w, -, -, hname', -⟩
  · exact h (mt hlabels.entries_eq_nil_iff.mp h')
  · exact hdiffer hlabels
  · exact ne_append_brace _ _ (hname.trans hname')

/-- Two texts that are split by a brace are the same at the same place, or one brace comes first. -/
theorem append_brace_eq {a t a' t' : String} (h : a ++ "\x7b" ++ t = a' ++ "\x7b" ++ t') :
    (a = a' ∧ t = t') ∨ (∃ w, a' = a ++ "\x7b" ++ w ∧ t = w ++ "\x7b" ++ t')
      ∨ ∃ w, a = a' ++ "\x7b" ++ w ∧ t' = w ++ "\x7b" ++ t := by
  have hbrace : "\x7b".toList = ['\x7b'] := by decide
  have hshift {a t a' t' : String} {l : List Char} (hname : a'.toList = a.toList ++ l)
      (htext : '\x7b' :: t.toList = l ++ '\x7b' :: t'.toList) :
      (a = a' ∧ t = t') ∨ ∃ w, a' = a ++ "\x7b" ++ w ∧ t = w ++ "\x7b" ++ t' := by
    rcases l with _ | ⟨c, w⟩
    · left
      rw [List.append_nil] at hname
      exact ⟨String.toList_inj.mp hname.symm, String.toList_inj.mp (by simpa using htext)⟩
    · right
      rw [List.cons_append, List.cons.injEq] at htext
      obtain ⟨rfl, htext⟩ := htext
      refine ⟨String.ofList w, String.toList_inj.mp ?_, String.toList_inj.mp ?_⟩
      · simp [hname, hbrace]
      · simp [htext, hbrace]
  have hlist := congrArg String.toList h
  simp only [String.toList_append, hbrace, List.append_assoc, List.singleton_append] at hlist
  rcases List.append_eq_append_iff.mp hlist with ⟨l, hname, htext⟩ | ⟨l, hname, htext⟩
  · rcases hshift hname htext with hsame | hfirst
    · exact .inl hsame
    · exact .inr (.inl hfirst)
  · rcases hshift hname htext with ⟨hname, htext⟩ | hfirst
    · exact .inl ⟨hname.symm, htext.symm⟩
    · exact .inr (.inr hfirst)

/-- Different series with one text: one of them is misread as the other. -/
theorem misread_of_key_eq (hkind : call.kind = call'.kind) (hkey : call.key = call'.key)
    (hdiffer : ¬ SameSeries call call') : Misread call call' ∨ Misread call' call := by
  by_cases h : call.Labelled <;> by_cases h' : call'.Labelled
  · have hcut : call.name ++ "\x7b" ++ call.text = call'.name ++ "\x7b" ++ call'.text := by
      rw [key_of_labelled h, key_of_labelled h'] at hkey
      have hlist : (call.name ++ "\x7b" ++ call.text).toList ++ "\x7d".toList
          = (call'.name ++ "\x7b" ++ call'.text).toList ++ "\x7d".toList := by
        rw [← String.toList_append, ← String.toList_append, hkey]
      exact String.toList_inj.mp (List.append_cancel_right hlist)
    rcases append_brace_eq hcut with ⟨hname, htext⟩ | ⟨w, hname, htext⟩ | ⟨w, hname, htext⟩
    · exact .inl (.text h h' hname htext fun hlabels => hdiffer ⟨hkind, hname, hlabels⟩)
    · exact .inl (.shifted w h h' hname htext)
    · exact .inr (.shifted w h' h hname htext)
  · rw [key_of_labelled h, key_of_not_labelled h'] at hkey
    exact .inr (.plain h' h hkey.symm)
  · rw [key_of_not_labelled h, key_of_labelled h'] at hkey
    exact .inl (.plain h h' hkey)
  · rw [key_of_not_labelled h, key_of_not_labelled h'] at hkey
    have hnone {call : MetricCall} (h : ¬ call.Labelled) (k : String) :
        (labelsOf call.labels).get? k = none := by
      have hempty : labelsOf call.labels = ∅ := Dict.ext (not_not.mp h)
      rw [hempty, Dict.get?_empty]
    refine absurd ⟨hkind, hkey, fun k => ?_⟩ hdiffer
    rw [hnone h, hnone h']

end MetricCall

/-! ## Series over a run -/

/-- The value of a series: a number, or the samples of a histogram. -/
inductive SeriesValue
  | number (value : ℚ)
  | samples (values : List ℚ)
  deriving DecidableEq

/-- The series of this kind that is stored under this text. -/
def MetricsSnapshot.series (snapshot : MetricsSnapshot) (key : String) :
    MetricKind → Option SeriesValue
  | .counter => (snapshot.counters.get? key).map .number
  | .gauge => (snapshot.gauges.get? key).map .number
  | .histogram => (snapshot.histograms.get? key).map .samples

namespace MetricCall

variable {call other : MetricCall} {calls : List MetricCall}
  {exporter exporter' : InMemoryMetricsExporter} {kind : MetricKind} {key : String}

/-- A call of another kind or under another text leaves the series as it is. -/
theorem series_exec_of_ne (h : ¬ (call.kind = kind ∧ call.key = key)) :
    (call.exec exporter).snapshot.series key kind = exporter.snapshot.series key kind := by
  obtain ⟨callKind, name, value, labels⟩ := call
  rcases callKind <;> rcases kind <;> try rfl
  all_goals
    have hkey : labelKey name labels ≠ key := fun hkey => h ⟨rfl, hkey⟩
    unfold exec
    simp only [InMemoryMetricsExporter.counter, InMemoryMetricsExporter.gauge,
      InMemoryMetricsExporter.histogram, InMemoryMetricsExporter.snapshot, MetricsSnapshot.series,
      Dict.get?_set_ne _ _ hkey]

/-- What a call makes of a series depends on the series alone. -/
theorem series_exec_congr
    (h : exporter.snapshot.series call.key call.kind
      = exporter'.snapshot.series call.key call.kind) :
    (call.exec exporter).snapshot.series call.key call.kind
      = (call.exec exporter').snapshot.series call.key call.kind := by
  obtain ⟨callKind, name, value, labels⟩ := call
  have hnumber : Function.Injective SeriesValue.number := fun _ _ h => by cases h; rfl
  have hsamples : Function.Injective SeriesValue.samples := fun _ _ h => by cases h; rfl
  unfold exec
  rcases callKind
  · have hget : exporter.counters.get? (labelKey name labels)
        = exporter'.counters.get? (labelKey name labels) := Option.map_injective hnumber h
    simp only [InMemoryMetricsExporter.counter, InMemoryMetricsExporter.snapshot,
      MetricsSnapshot.series, key, Dict.get?_set_self, hget]
  · simp only [InMemoryMetricsExporter.gauge, InMemoryMetricsExporter.snapshot,
      MetricsSnapshot.series, key, Dict.get?_set_self]
  · have hget : exporter.histograms.get? (labelKey name labels)
        = exporter'.histograms.get? (labelKey name labels) := Option.map_injective hsamples h
    simp only [InMemoryMetricsExporter.histogram, InMemoryMetricsExporter.snapshot,
      MetricsSnapshot.series, key, Dict.get?_set_self, hget]

theorem execAll_concat (calls : List MetricCall) (call : MetricCall) :
    execAll (calls ++ [call]) = call.exec (execAll calls) := by
  unfold execAll
  rw [List.foldl_append]
  rfl

/-- A series is what the calls of its kind under its text make of it. -/
theorem series_execAll (calls : List MetricCall) : (execAll calls).snapshot.series key kind
    = (execAll (calls.filter fun call => call.kind = kind ∧ call.key = key)).snapshot.series
      key kind := by
  induction calls using List.reverseRecOn with
  | nil => rfl
  | append_singleton calls call ih =>
    rw [List.filter_append, execAll_concat]
    by_cases h : call.kind = kind ∧ call.key = key
    · rw [List.filter_cons_of_pos (by simpa using h), List.filter_nil, execAll_concat]
      obtain ⟨rfl, rfl⟩ := h
      exact series_exec_congr ih
    · rw [List.filter_cons_of_neg (by simpa using h), List.filter_nil, List.append_nil,
        series_exec_of_ne h, ih]

/-- Each series depends on the calls that name it alone, and calls share one only if they name the
same. -/
def SeriesSeparate (calls : List MetricCall) : Prop :=
  ∀ call ∈ calls,
    (execAll calls).snapshot.series call.key call.kind
        = (execAll (calls.filter fun other => SameSeries call other)).snapshot.series
          call.key call.kind
      ∧ ∀ other ∈ calls, call.kind = other.kind →
        (call.key = other.key ↔ SameSeries call other)

/-- The series do not mix exactly if no call is misread as one of the same kind for another. -/
theorem seriesSeparate_iff (calls : List MetricCall) : SeriesSeparate calls
    ↔ ∀ call ∈ calls, ∀ other ∈ calls, call.kind = other.kind → ¬ Misread call other := by
  constructor
  · intro h call hcall other hother hkind hmisread
    exact hmisread.not_sameSeries (((h call hcall).2 other hother hkind).mp hmisread.key_eq)
  · intro h call hcall
    have hshare {other : MetricCall} (hother : other ∈ calls) (hkind : call.kind = other.kind) :
        call.key = other.key ↔ SameSeries call other := by
      refine ⟨fun hkey => ?_, SameSeries.key_eq⟩
      by_contra hdiffer
      rcases misread_of_key_eq hkind hkey hdiffer with hmisread | hmisread
      · exact h call hcall other hother hkind hmisread
      · exact h other hother call hcall hkind.symm hmisread
    refine ⟨?_, fun other hother => hshare hother⟩
    have hfilter : (calls.filter fun other => other.kind = call.kind ∧ other.key = call.key)
        = calls.filter fun other => SameSeries call other := by
      refine List.filter_congr fun other hother => ?_
      rw [decide_eq_decide]
      constructor
      · rintro ⟨hkind, hkey⟩
        exact (hshare hother hkind.symm).mp hkey.symm
      · intro hsame
        exact ⟨hsame.1.symm, hsame.key_eq.symm⟩
    rw [series_execAll, hfilter]

/-- A counter with a label, and a counter whose name is the text of the first. -/
theorem not_seriesSeparate_brace : ¬ SeriesSeparate
    [{ kind := .counter, name := "a", value := 1, labels := some ⟨[("b", "c")], by decide⟩ },
     { kind := .counter, name := "a\x7bb=c\x7d", value := 1 }] := by
  intro h
  have hshare := (h _ (List.mem_cons_self ..)).2 _ (List.mem_cons_of_mem _ (List.mem_cons_self ..))
    rfl
  have hsame := hshare.mp (by decide +kernel)
  exact absurd hsame.2.1 (by decide)

/-! ## Names and labels without separators -/

/-- The name has no brace, the labels no commas, and their keys no equals sign. -/
structure Plain (call : MetricCall) : Prop where
  name : '\x7b' ∉ call.name.toList
  keys : ∀ e ∈ (labelsOf call.labels).entries, '=' ∉ e.1.toList ∧ ',' ∉ e.1.toList
  values : ∀ e ∈ (labelsOf call.labels).entries, ',' ∉ e.2.toList

/-- What stands before the first equals sign, and what stands after it. -/
def cutAtEquals (s : String) : String × String :=
  (String.ofList (s.toList.takeWhile (· ≠ '=')),
    String.ofList ((s.toList.dropWhile (· ≠ '=')).drop 1))

theorem cutAtEquals_label {k v : String} (hk : '=' ∉ k.toList) :
    cutAtEquals (k ++ "=" ++ v) = (k, v) := by
  have hbefore : ∀ c ∈ k.toList, decide (c ≠ '=') = true := by
    intro c hc
    rw [decide_eq_true_eq]
    rintro rfl
    exact hk hc
  have hequals : "=".toList = ['='] := by decide
  unfold cutAtEquals
  simp only [String.toList_append, hequals, List.append_assoc, List.singleton_append]
  rw [List.takeWhile_append_of_pos hbefore, List.dropWhile_append_of_pos hbefore]
  simp

/-- The labels in the order in which they are written. -/
def sortedLabels (call : MetricCall) : List (String × String) :=
  (labelsOf call.labels).entries.insertionSort fun a b => toLex a ≤ toLex b

theorem sortedLabels_perm (call : MetricCall) :
    call.sortedLabels.Perm (labelsOf call.labels).entries :=
  List.perm_insertionSort _ _

theorem map_cutAtEquals (h : call.Plain) :
    (call.sortedLabels.map fun e => e.1 ++ "=" ++ e.2).map cutAtEquals = call.sortedLabels := by
  rw [List.map_map]
  conv_rhs => rw [← List.map_id call.sortedLabels]
  refine List.map_congr_left fun e he => ?_
  exact cutAtEquals_label (h.keys e (call.sortedLabels_perm.mem_iff.mp he)).1

theorem split_text (h : call.Plain) (hlabels : call.Labelled) :
    (call.text.split ',').toList.map (·.copy)
      = call.sortedLabels.map fun e => e.1 ++ "=" ++ e.2 := by
  have hne : (call.sortedLabels.map fun e => e.1 ++ "=" ++ e.2) ≠ [] := by
    intro hnil
    rw [List.map_eq_nil_iff] at hnil
    exact hlabels ((hnil ▸ call.sortedLabels_perm).symm.eq_nil)
  refine (String.toList_split_intercalate fun s hs => ?_).trans (if_neg hne)
  obtain ⟨e, he, rfl⟩ := List.mem_map.mp hs
  have hmem := call.sortedLabels_perm.mem_iff.mp he
  have hequals : "=".toList = ['='] := by decide
  simp [hequals, (h.keys e hmem).2, h.values e hmem]

/-- The text of plain labels gives the labels. -/
theorem sameLabels_of_text_eq (h : call.Plain) (h' : other.Plain) (hlabels : call.Labelled)
    (hlabels' : other.Labelled) (htext : call.text = other.text) :
    SameLabels call.labels other.labels := by
  have hsorted : call.sortedLabels = other.sortedLabels := by
    rw [← map_cutAtEquals h, ← map_cutAtEquals h', ← split_text h hlabels,
      ← split_text h' hlabels', htext]
  have hentries : (labelsOf call.labels).entries.Perm (labelsOf other.labels).entries :=
    call.sortedLabels_perm.symm.trans (hsorted ▸ other.sortedLabels_perm)
  intro k
  ext v
  rw [Dict.get?_eq_some_iff, Dict.get?_eq_some_iff, hentries.mem_iff]

/-- Calls with plain names and labels are never misread. -/
theorem not_misread_of_plain (h : call.Plain) (h' : other.Plain) : ¬ Misread call other := by
  have hbrace : "\x7b".toList = ['\x7b'] := by decide
  rintro (⟨-, -, hname⟩ | ⟨hlabels, hlabels', -, htext, hdiffer⟩ | ⟨w, -, -, hname, -⟩)
  · refine h.name ?_
    simp [hname, hbrace]
  · exact hdiffer (sameLabels_of_text_eq h h' hlabels hlabels' htext)
  · refine h'.name ?_
    simp [hname, hbrace]

end MetricCall

end AgentLearning
