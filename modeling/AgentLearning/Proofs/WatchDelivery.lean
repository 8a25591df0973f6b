import AgentLearning.ConfigWatcher
import Mathlib.Data.List.Induction
import Mathlib.Data.List.Perm.Basic
import Mathlib.Tactic.IntervalCases

/-!
# Who is told of a change

A watch is registered for a namespace and a key, and what is delivered goes by one string made of
the two, over lists that the callbacks may change on the way. With callbacks that leave alone who
is still to be called, an event comes to each registration for it once just when no other
registration goes by its strings and its key is not the wildcard itself.
-/

namespace AgentLearning

/-- Who watches what. -/
structure Registration (η : Type) where
  ns : String
  key : String
  callback : η
  deriving DecidableEq

section Registered

variable {η : Type} [DecidableEq η]

def Registration.watchKey (r : Registration η) : String := ConfigWatcher.watchKey r.ns r.key

/-- A registration for the pair of the event, or for its namespace and the wildcard. -/
def Registration.IsFor (event : WatchEvent) (r : Registration η) : Prop :=
  r.ns = event.ns ∧ (r.key = event.key ∨ r.key = "*")

instance (event : WatchEvent) (r : Registration η) : Decidable (r.IsFor event) :=
  inferInstanceAs (Decidable (_ ∧ _))

/-- It goes by one of the strings of the event. -/
def Registration.Reached (event : WatchEvent) (r : Registration η) : Prop :=
  r.watchKey = ConfigWatcher.watchKey event.ns event.key
    ∨ r.watchKey = ConfigWatcher.watchKey event.ns "*"

instance (event : WatchEvent) (r : Registration η) : Decidable (r.Reached event) :=
  inferInstanceAs (Decidable (_ ∨ _))

def applyWatch (registrations : List (Registration η)) : WatchCall η → List (Registration η)
  | .watch ns key callback => registrations ++ [⟨ns, key, callback⟩]
  | .unwatch ns key callback => registrations.erase ⟨ns, key, callback⟩

/-- What the calls have registered and not taken back. -/
def registered (calls : List (WatchCall η)) : List (Registration η) := calls.foldl applyWatch []

/-- The callbacks that an event is for. -/
def recipients (event : WatchEvent) (registrations : List (Registration η)) : List η :=
  (registrations.filter (·.IsFor event)).map Registration.callback

/-- The callbacks that go by a string. -/
def goingBy (wk : String) (registrations : List (Registration η)) : List η :=
  (registrations.filter (·.watchKey = wk)).map Registration.callback

/-- An `unwatch` that finds its callback under the string takes back one for its own pair. -/
def OwnUnwatches (calls : List (WatchCall η)) (wk : String) : Prop :=
  ∀ before ns key callback, before ++ [.unwatch ns key callback] <+: calls →
    ConfigWatcher.watchKey ns key = wk → callback ∈ goingBy wk (registered before) →
      ⟨ns, key, callback⟩ ∈ registered before

/-- What goes by the strings of the event is for the event, and nothing does so twice. -/
def Unmixed (event : WatchEvent) (registrations : List (Registration η)) : Prop :=
  ∀ r ∈ registrations, r.Reached event → r.IsFor event ∧ event.key ≠ "*"

instance (event : WatchEvent) (registrations : List (Registration η)) :
    Decidable (Unmixed event registrations) :=
  inferInstanceAs (Decidable (∀ r ∈ registrations, r.Reached event → _))

variable {r : Registration η} {registrations : List (Registration η)} {wk : String}

omit [DecidableEq η] in
theorem mem_goingBy (h : r ∈ registrations) : r.callback ∈ goingBy r.watchKey registrations :=
  List.mem_map_of_mem (List.mem_filter.2 ⟨h, decide_eq_true rfl⟩)

theorem goingBy_erase (h : r ∈ registrations) :
    (goingBy r.watchKey (registrations.erase r)).Perm
      ((goingBy r.watchKey registrations).erase r.callback) := by
  have hcons := ((List.perm_cons_erase h).filter (·.watchKey = r.watchKey)).map
    Registration.callback
  rw [List.filter_cons_of_pos (by simp)] at hcons
  exact (hcons.symm.trans (List.perm_cons_erase (mem_goingBy h))).cons_inv

theorem goingBy_erase_ne (h : r.watchKey ≠ wk) :
    (goingBy wk (registrations.erase r)).Perm (goingBy wk registrations) := by
  by_cases hmem : r ∈ registrations
  · have hcons := ((List.perm_cons_erase hmem).filter (·.watchKey = wk)).map Registration.callback
    rw [List.filter_cons_of_neg (by simpa using h)] at hcons
    exact hcons.symm
  · rw [List.erase_of_not_mem hmem]

end Registered

namespace ConfigWatcher

variable {η : Type} [DecidableEq η] {watcher : ConfigWatcher η} {wk ns key : String}

theorem watchKey_inj {key' : String} (h : watchKey ns key = watchKey ns key') : key = key' := by
  have hlist := congrArg String.toList h
  simp only [watchKey, String.toList_append, List.append_cancel_left_eq, String.toList_inj] at hlist
  exact hlist

omit [DecidableEq η] in
theorem callbacks_set (callbacks : List η) (wk' : String) :
    ({ watchers := watcher.watchers.set wk' callbacks } : ConfigWatcher η).callbacks wk
      = if wk' = wk then callbacks else watcher.callbacks wk := by
  rw [ConfigWatcher.callbacks, Dict.get?_set]
  split_ifs <;> rfl

theorem callbacks_unwatch (callback : η) :
    (watcher.exec (.unwatch ns key callback)).callbacks wk
      = if watchKey ns key = wk then (watcher.callbacks wk).erase callback
        else watcher.callbacks wk := by
  simp only [exec, unwatch]
  split_ifs with hmem hkey hkey
  · rw [callbacks_set, if_pos hkey, hkey]
  · rw [callbacks_set, if_neg hkey]
  · exact (List.erase_of_not_mem (hkey ▸ hmem)).symm
  · rfl

/-- The list under a string has the callbacks that go by it. -/
theorem callbacks_execAll {calls : List (WatchCall η)} (h : OwnUnwatches calls wk) :
    ((execAll {} calls).callbacks wk).Perm (goingBy wk (registered calls)) := by
  induction calls using List.reverseRecOn with
  | nil => exact .refl _
  | append_singleton calls call ih =>
    have hcalls := ih fun before ns key callback hbefore =>
      h before ns key callback (hbefore.trans (List.prefix_append ..))
    rw [execAll, List.foldl_append, List.foldl_cons, List.foldl_nil, ← execAll]
    rw [registered, List.foldl_append, List.foldl_cons, List.foldl_nil, ← registered]
    rcases call with ⟨ns, key, callback⟩ | ⟨ns, key, callback⟩
    · rw [exec, watch, callbacks_set, applyWatch, goingBy, List.filter_append, List.map_append,
        ← goingBy]
      split_ifs with hkey
      · subst hkey
        rw [List.filter_cons_of_pos (by simp [Registration.watchKey])]
        exact hcalls.append_right _
      · have hne : (⟨ns, key, callback⟩ : Registration η).watchKey ≠ wk := hkey
        rw [List.filter_cons_of_neg (by simpa using hne)]
        simpa using hcalls
    · rw [callbacks_unwatch, applyWatch]
      split_ifs with hkey
      · by_cases hmem : (⟨ns, key, callback⟩ : Registration η) ∈ registered calls
        · subst hkey
          exact (hcalls.erase callback).trans (goingBy_erase hmem).symm
        · have hnone : callback ∉ goingBy wk (registered calls) := fun hcallback =>
            hmem (h calls ns key callback (List.prefix_refl _) hkey hcallback)
          rw [List.erase_of_not_mem hmem, List.erase_of_not_mem (hcalls.mem_iff.not.2 hnone)]
          exact hcalls
      · have hne : (⟨ns, key, callback⟩ : Registration η).watchKey ≠ wk := hkey
        exact hcalls.trans (goingBy_erase_ne hne).symm

end ConfigWatcher

section Ahead

variable {η : Type} [DecidableEq η]

/-- Who is still to be called, if the lists stay as they are. -/
def ahead (event : WatchEvent) (watcher : ConfigWatcher η) : NotifyStage → List η
  | .exact place =>
    (watcher.callbacks (ConfigWatcher.watchKey event.ns event.key)).drop place
      ++ watcher.callbacks (ConfigWatcher.watchKey event.ns "*")
  | .wildcard place => (watcher.callbacks (ConfigWatcher.watchKey event.ns "*")).drop place
  | .returned _ | .raised _ => []

variable (react : ℕ → η → WatchEvent → Reaction η) (event : WatchEvent) (d : Delivery η)

/-- The callback whose turn it is, and where the loop goes on after it. -/
def Delivery.current : Option (η × NotifyStage) :=
  match d.stage with
  | .exact place =>
    (d.watcher.callbacks (ConfigWatcher.watchKey event.ns event.key))[place]?.map
      (·, .exact (place + 1))
  | .wildcard place =>
    (d.watcher.callbacks (ConfigWatcher.watchKey event.ns "*"))[place]?.map
      (·, .wildcard (place + 1))
  | .returned _ | .raised _ => none

/-- The callback whose turn it is raises nothing and leaves alone who is still to be called. -/
def Undisturbed : Prop :=
  ∀ callback stage, d.current event = some (callback, stage) →
    (react d.count callback event).error = none
      ∧ (ahead event (d.watcher.execAll (react d.count callback event).calls) stage).Perm
        (ahead event d.watcher stage)

/-- The delivery returns after calling the callbacks the event is for, once for each registration,
and what it returns is their number. -/
def Delivers (calls : List (WatchCall η)) : Prop :=
  ∃ steps count,
    ((ConfigWatcher.execAll {} calls).notify react event steps).stage = .returned count
    ∧ ((ConfigWatcher.execAll {} calls).notify react event steps).called.length = count
    ∧ ((ConfigWatcher.execAll {} calls).notify react event steps).called.Perm
      (recipients event (registered calls))

end Ahead

namespace Delivery

variable {η : Type} [DecidableEq η] {react : ℕ → η → WatchEvent → Reaction η} {event : WatchEvent}
  {d : Delivery η} {callback : η} {stage : NotifyStage} {told : List η}

omit [DecidableEq η] in
/-- The callback whose turn it is stands at the place of the loop in one of the two lists. -/
theorem current_cases (h : d.current event = some (callback, stage)) :
    (∃ place, d.stage = .exact place ∧ stage = .exact (place + 1)
        ∧ (d.watcher.callbacks (ConfigWatcher.watchKey event.ns event.key))[place]?
          = some callback)
      ∨ ∃ place, d.stage = .wildcard place ∧ stage = .wildcard (place + 1)
        ∧ (d.watcher.callbacks (ConfigWatcher.watchKey event.ns "*"))[place]? = some callback := by
  unfold current at h
  split at h
  · obtain ⟨_, hcallback, hpair⟩ := Option.map_eq_some_iff.1 h
    obtain ⟨rfl, rfl⟩ := Prod.mk.inj hpair
    exact .inl ⟨_, ‹d.stage = _›, rfl, hcallback⟩
  · obtain ⟨_, hcallback, hpair⟩ := Option.map_eq_some_iff.1 h
    obtain ⟨rfl, rfl⟩ := Prod.mk.inj hpair
    exact .inr ⟨_, ‹d.stage = _›, rfl, hcallback⟩
  · cases h
  · cases h

theorem next_of_current (h : d.current event = some (callback, stage)) :
    d.next react event = d.call react event callback stage := by
  unfold next
  rcases current_cases h with ⟨place, hstage, rfl, hcallback⟩ | ⟨place, hstage, rfl, hcallback⟩
  · rw [hstage]
    simp only [hcallback]
  · rw [hstage]
    simp only [hcallback]

omit [DecidableEq η] in
theorem ahead_of_current (h : d.current event = some (callback, stage)) :
    ahead event d.watcher d.stage = callback :: ahead event d.watcher stage := by
  rcases current_cases h with ⟨place, hstage, rfl, hcallback⟩ | ⟨place, hstage, rfl, hcallback⟩
  · rw [hstage, ahead, ahead, List.drop_eq_getElem?_toList_append, hcallback]
    rfl
  · rw [hstage, ahead, ahead, List.drop_eq_getElem?_toList_append, hcallback]
    rfl

/-- The ends of lists that are still to come. -/
def ends : NotifyStage → ℕ
  | .exact _ => 2
  | .wildcard _ => 1
  | .returned _ | .raised _ => 0

omit [DecidableEq η] in
theorem ends_of_current (h : d.current event = some (callback, stage)) :
    ends stage = ends d.stage ∧ 0 < ends stage := by
  rcases current_cases h with ⟨place, hstage, rfl, -⟩ | ⟨place, hstage, rfl, -⟩
  · rw [hstage]
    exact ⟨rfl, Nat.succ_pos _⟩
  · rw [hstage]
    exact ⟨rfl, Nat.succ_pos _⟩

/-- With nobody's turn, the loop goes on to the next list, or has ended. -/
theorem next_of_none (react : ℕ → η → WatchEvent → Reaction η) (h : d.current event = none) :
    d.next react event = { d with stage := (d.next react event).stage }
      ∧ ahead event d.watcher (d.next react event).stage = ahead event d.watcher d.stage
      ∧ ends (d.next react event).stage = ends d.stage - 1
      ∧ ((d.next react event).stage = d.stage ∨ ends (d.next react event).stage = 1
        ∨ (d.next react event).stage = .returned d.count) := by
  unfold current at h
  unfold next
  split at h
  · have hplace := Option.map_eq_none_iff.1 h
    have hdrop := List.drop_eq_nil_iff.2 (List.getElem?_eq_none_iff.1 hplace)
    simp only [‹d.stage = _›, hplace]
    simp [ahead, ends, hdrop]
  · have hplace := Option.map_eq_none_iff.1 h
    have hdrop := List.drop_eq_nil_iff.2 (List.getElem?_eq_none_iff.1 hplace)
    simp only [‹d.stage = _›, hplace]
    simp [ahead, ends, hdrop]
  · simp only [‹d.stage = _›]
    simp [← ‹d.stage = _›, ends]
  · simp only [‹d.stage = _›]
    simp [← ‹d.stage = _›, ends]

/-- What is left to do of a delivery: the calls, and the ends of the lists. -/
def left (event : WatchEvent) (d : Delivery η) : ℕ :=
  (ahead event d.watcher d.stage).length + ends d.stage

/-- Who was called and who is still to be called are together those of `told`. -/
structure Told (event : WatchEvent) (told : List η) (d : Delivery η) : Prop where
  perm : (d.called ++ ahead event d.watcher d.stage).Perm told
  count : d.called.length = d.count
  returned : ends d.stage = 0 → d.stage = .returned d.count

theorem call_of_undisturbed (hcalm : Undisturbed react event d)
    (h : d.current event = some (callback, stage)) :
    d.call react event callback stage
      = { watcher := d.watcher.execAll (react d.count callback event).calls, stage,
          count := d.count + 1, called := d.called ++ [callback] } := by
  unfold call
  simp only [(hcalm callback stage h).1]

theorem Told.next (htold : Told event told d) (hcalm : Undisturbed react event d) :
    Told event told (d.next react event) := by
  rcases hcurrent : d.current event with _ | ⟨callback, stage⟩
  · obtain ⟨hnext, hahead, hends, hstage⟩ := next_of_none react hcurrent
    rw [hnext]
    refine ⟨?_, htold.count, fun h => ?_⟩
    · exact hahead ▸ htold.perm
    · rcases hstage with hstage | hstage | hstage
      · exact hstage.trans (htold.returned (hstage ▸ h))
      · exact absurd (hstage.symm.trans h) one_ne_zero
      · exact hstage
  · have hperm := (hcalm callback stage hcurrent).2
    rw [next_of_current hcurrent, call_of_undisturbed hcalm hcurrent]
    refine ⟨?_, by simp [htold.count], fun h => absurd h (ends_of_current hcurrent).2.ne'⟩
    calc d.called ++ [callback] ++ ahead event (d.watcher.execAll _) stage
        = d.called ++ callback :: ahead event (d.watcher.execAll _) stage :=
          List.append_cons .. |>.symm
      _ |>.Perm (d.called ++ callback :: ahead event d.watcher stage) :=
          (hperm.cons callback).append_left _
      _ = d.called ++ ahead event d.watcher d.stage := by rw [ahead_of_current hcurrent]
      _ |>.Perm told := htold.perm

theorem left_next (hcalm : Undisturbed react event d) :
    left event (d.next react event) = left event d - 1 := by
  unfold left
  rcases hcurrent : d.current event with _ | ⟨callback, stage⟩
  · obtain ⟨hnext, hahead, hends, -⟩ := next_of_none react hcurrent
    have hdone : (ahead event d.watcher d.stage).length = 0 ∨ 0 < ends d.stage := by
      rcases d.stage with _ | _ | _ | _ <;> simp [ahead, ends]
    rw [hnext]
    simp only [hahead, hends]
    omega
  · have hlength := (hcalm callback stage hcurrent).2.length_eq
    have hends := ends_of_current hcurrent
    rw [next_of_current hcurrent, call_of_undisturbed hcalm hcurrent, ahead_of_current hcurrent]
    simp only [List.length_cons, hlength]
    omega

end Delivery

section Run

variable {η : Type} [DecidableEq η] {react : ℕ → η → WatchEvent → Reaction η} {event : WatchEvent}
  {watcher : ConfigWatcher η} {calls : List (WatchCall η)}

theorem notify_succ (steps : ℕ) :
    watcher.notify react event (steps + 1) = (watcher.notify react event steps).next react event :=
  Function.iterate_succ_apply' ..

/-- A delivery in which every callback leaves alone who is ahead calls those of both lists, and
ends. -/
theorem told_notify {told : List η} (hstart : Delivery.Told event told { watcher })
    (hcalm : ∀ steps, Undisturbed react event (watcher.notify react event steps)) (steps : ℕ) :
    Delivery.Told event told (watcher.notify react event steps)
      ∧ Delivery.left event (watcher.notify react event steps)
        = Delivery.left event { watcher } - steps := by
  induction steps with
  | zero => exact ⟨hstart, rfl⟩
  | succ steps ih =>
    rw [notify_succ]
    exact ⟨ih.1.next (hcalm steps), (Delivery.left_next (hcalm steps)).trans (by omega)⟩

/-- If the callbacks leave alone who is ahead, the lists at the start say who is called. -/
theorem delivers_iff_start (hcalm : ∀ steps,
      Undisturbed react event ((ConfigWatcher.execAll {} calls).notify react event steps)) :
    Delivers react event calls ↔
      (ahead event (ConfigWatcher.execAll {} calls) (.exact 0)).Perm
        (recipients event (registered calls)) := by
  have hrun := told_notify ⟨.refl _, rfl, fun h => absurd h (Nat.succ_ne_zero _)⟩ hcalm
  constructor
  · rintro ⟨steps, count, hstage, -, hcalled⟩
    have hperm := (hrun steps).1.perm
    have hahead : ahead event ((ConfigWatcher.execAll {} calls).notify react event steps).watcher
        (.returned count) = [] := rfl
    rw [hstage, hahead, List.append_nil] at hperm
    exact hperm.symm.trans hcalled
  · intro hstart
    obtain ⟨htold, hleft⟩ :=
      hrun (Delivery.left event { watcher := ConfigWatcher.execAll {} calls })
    rw [Nat.sub_self, Delivery.left, Nat.add_eq_zero_iff] at hleft
    obtain ⟨hahead, hends⟩ := hleft
    refine ⟨_, _, htold.returned hends, htold.count, ?_⟩
    have hperm := htold.perm
    rw [List.length_eq_zero_iff.1 hahead, List.append_nil] at hperm
    exact hperm.trans hstart

/-- There is one end to a delivery. -/
theorem notify_unique {m n count count' : ℕ}
    (hm : (watcher.notify react event m).stage = .returned count)
    (hn : (watcher.notify react event n).stage = .returned count') :
    watcher.notify react event m = watcher.notify react event n := by
  have hfixed : ∀ {k c}, (watcher.notify react event k).stage = .returned c → ∀ j,
      watcher.notify react event (j + k) = watcher.notify react event k := by
    intro k c hk j
    rw [ConfigWatcher.notify, Function.iterate_add_apply]
    refine Function.iterate_fixed ?_ j
    rw [← ConfigWatcher.notify, Delivery.next, hk]
  rw [← hfixed hn m, ← hfixed hm n, Nat.add_comm]

/-- Callbacks that only look leave alone who is ahead. -/
theorem undisturbed_of_silent {d : Delivery η}
    (h : ∀ count callback, react count callback event = {}) : Undisturbed react event d := by
  intro callback stage _
  rw [h]
  exact ⟨rfl, .refl _⟩

theorem ownUnwatches_of_watches (wk : String)
    (h : ∀ ns key callback, .unwatch ns key callback ∉ calls) : OwnUnwatches calls wk := by
  intro before ns key callback hbefore _ _
  exact absurd (hbefore.subset (by simp)) (h ns key callback)

end Run

section Strings

variable {η : Type} {event : WatchEvent} {r : Registration η}
  {registrations : List (Registration η)}

theorem Registration.IsFor.reached (h : r.IsFor event) : r.Reached event := by
  obtain ⟨hns, hkey | hkey⟩ := h
  · exact .inl (by rw [Registration.watchKey, hns, hkey])
  · exact .inr (by rw [Registration.watchKey, hns, hkey])

/-- Both lists together have those that the event reaches, each once if its key is no wildcard. -/
theorem goingBy_perm (registrations : List (Registration η)) (hkey : event.key ≠ "*") :
    (goingBy (ConfigWatcher.watchKey event.ns event.key) registrations
        ++ goingBy (ConfigWatcher.watchKey event.ns "*") registrations).Perm
      ((registrations.filter (·.Reached event)).map Registration.callback) := by
  have hexact : registrations.filter (·.watchKey = ConfigWatcher.watchKey event.ns event.key)
      = (registrations.filter (·.Reached event)).filter
        (·.watchKey = ConfigWatcher.watchKey event.ns event.key) := by
    rw [List.filter_filter]
    refine List.filter_congr fun r _ => ?_
    rw [← Bool.decide_and, decide_eq_decide]
    exact ⟨fun h => ⟨h, .inl h⟩, And.left⟩
  have hwild : registrations.filter (·.watchKey = ConfigWatcher.watchKey event.ns "*")
      = (registrations.filter (·.Reached event)).filter
        (¬ ·.watchKey = ConfigWatcher.watchKey event.ns event.key) := by
    rw [List.filter_filter]
    refine List.filter_congr fun r _ => ?_
    rw [← Bool.decide_and, decide_eq_decide]
    constructor
    · intro h
      exact ⟨fun h' => hkey (ConfigWatcher.watchKey_inj (h'.symm.trans h)), .inr h⟩
    · rintro ⟨hne, h | h⟩
      · exact absurd h hne
      · exact h
  rw [goingBy, goingBy, hexact, hwild, ← List.map_append]
  simpa using (List.filter_append_perm
    (fun r : Registration η => decide (r.watchKey = ConfigWatcher.watchKey event.ns event.key))
    (registrations.filter (·.Reached event))).map Registration.callback

theorem filter_isFor_sublist (event : WatchEvent) (registrations : List (Registration η)) :
    (registrations.filter (·.IsFor event)).Sublist (registrations.filter (·.Reached event)) :=
  List.monotone_filter_right _ fun r h => by
    rw [decide_eq_true_eq] at h ⊢
    exact h.reached

/-- For the wildcard as a key, both lists are the same, so nothing may be in them. -/
theorem goingBy_perm_iff_of_star (hkey : event.key = "*") :
    (goingBy (ConfigWatcher.watchKey event.ns event.key) registrations
        ++ goingBy (ConfigWatcher.watchKey event.ns "*") registrations).Perm
      (recipients event registrations) ↔ Unmixed event registrations := by
  have hsub := filter_isFor_sublist event registrations
  have hgoing : goingBy (ConfigWatcher.watchKey event.ns event.key) registrations
      = (registrations.filter (·.Reached event)).map Registration.callback := by
    simp [goingBy, Registration.Reached, hkey]
  have hwild : goingBy (ConfigWatcher.watchKey event.ns "*") registrations
      = goingBy (ConfigWatcher.watchKey event.ns event.key) registrations := by rw [hkey]
  rw [hwild, hgoing]
  constructor
  · intro h r hr hreached
    -- each of them is there twice, so there are none
    have hlength := h.length_eq
    have hle := hsub.length_le
    rw [recipients, List.length_append, List.length_map, List.length_map] at hlength
    have hnil : registrations.filter (·.Reached event) = [] :=
      List.length_eq_zero_iff.1 (by omega)
    exact absurd (decide_eq_true hreached) (List.filter_eq_nil_iff.1 hnil r hr)
  · intro h
    have hnil : registrations.filter (·.Reached event) = [] :=
      List.filter_eq_nil_iff.2 fun r hr hreached =>
        (h r hr (of_decide_eq_true hreached)).2 hkey
    rw [hnil, List.sublist_nil] at hsub
    rw [recipients, hsub, hnil]
    exact .refl _

/-- The lists at the start have what the event is for just when nothing else goes by its
strings, and nothing does so twice. -/
theorem goingBy_perm_iff :
    (goingBy (ConfigWatcher.watchKey event.ns event.key) registrations
        ++ goingBy (ConfigWatcher.watchKey event.ns "*") registrations).Perm
      (recipients event registrations) ↔ Unmixed event registrations := by
  by_cases hkey : event.key = "*"
  · exact goingBy_perm_iff_of_star hkey
  · constructor
    · intro h r hr hreached
      have hlength := (h.symm.trans (goingBy_perm registrations hkey)).length_eq
      rw [recipients, List.length_map, List.length_map] at hlength
      have hmem : r ∈ registrations.filter (·.Reached event) :=
        List.mem_filter.2 ⟨hr, decide_eq_true hreached⟩
      rw [← (filter_isFor_sublist event registrations).eq_of_length hlength] at hmem
      exact ⟨of_decide_eq_true (List.mem_filter.1 hmem).2, hkey⟩
    · intro h
      have hfilter : registrations.filter (·.Reached event)
          = registrations.filter (·.IsFor event) :=
        List.filter_congr fun r hr => by
          rw [decide_eq_decide]
          exact ⟨fun hreached => (h r hr hreached).1, Registration.IsFor.reached⟩
      have hperm := goingBy_perm registrations hkey
      rwa [hfilter] at hperm

end Strings

/-- An event comes to the callbacks registered for it, once for each registration, just when each
registration that goes by one of its strings is for it and its key is not the wildcard, if no
`unwatch` took a callback of another pair and each callback leaves alone who is still to be
called. -/
theorem delivers_iff {η : Type} [DecidableEq η] (react : ℕ → η → WatchEvent → Reaction η)
    (event : WatchEvent) (calls : List (WatchCall η))
    (hexact : OwnUnwatches calls (ConfigWatcher.watchKey event.ns event.key))
    (hwild : OwnUnwatches calls (ConfigWatcher.watchKey event.ns "*"))
    (hcalm : ∀ steps,
      Undisturbed react event ((ConfigWatcher.execAll {} calls).notify react event steps)) :
    Delivers react event calls ↔ Unmixed event (registered calls) := by
  have hstart : (ahead event (ConfigWatcher.execAll {} calls) (.exact 0)).Perm
      (goingBy (ConfigWatcher.watchKey event.ns event.key) (registered calls)
        ++ goingBy (ConfigWatcher.watchKey event.ns "*") (registered calls)) :=
    (ConfigWatcher.callbacks_execAll hexact).append (ConfigWatcher.callbacks_execAll hwild)
  rw [delivers_iff_start hcalm, ← goingBy_perm_iff]
  exact ⟨hstart.symm.trans, hstart.trans⟩

/-- Callbacks of two registrations, one for the key and one for all keys, that call nothing. -/
theorem delivers_iff_two_watchers :
    Delivers (fun _ _ _ => {}) ⟨"ns", "k", .null, .null, 0, 1, "created"⟩
        [.watch "ns" "k" 0, .watch "ns" "*" 1]
      ↔ Unmixed ⟨"ns", "k", .null, .null, 0, 1, "created"⟩
        (registered [.watch "ns" "k" 0, .watch "ns" "*" 1]) :=
  delivers_iff _ _ _ (ownUnwatches_of_watches _ (by simp)) (ownUnwatches_of_watches _ (by simp))
    fun _ => undisturbed_of_silent fun _ _ => rfl

/-- Callback 0 takes itself back. -/
def oneShot (_ : ℕ) (callback : ℕ) (event : WatchEvent) : Reaction ℕ :=
  if callback = 0 then { calls := [.unwatch event.ns event.key 0] } else {}

/-- A callback of another pair with the same string is called, one that waits for the wildcard is
called twice for an event of that key, and one that takes itself back keeps its successor from its
turn. -/
theorem not_delivered :
    ¬ Delivers (fun _ _ _ => {}) ⟨"a", "b::c", .null, .null, 0, 1, "created"⟩
        [.watch "a::b" "c" 0]
      ∧ ¬ Delivers (fun _ _ _ => {}) ⟨"ns", "*", .null, .null, 0, 1, "created"⟩
        [.watch "ns" "*" 0]
      ∧ ¬ Delivers oneShot ⟨"ns", "k", .null, .null, 0, 1, "created"⟩
        [.watch "ns" "k" 0, .watch "ns" "k" 1] := by
  refine ⟨?_, ?_, ?_⟩
  · rw [delivers_iff_start fun _ => undisturbed_of_silent fun _ _ => rfl]
    decide +kernel
  · rw [delivers_iff_start fun _ => undisturbed_of_silent fun _ _ => rfl]
    decide +kernel
  · rintro ⟨steps, count, hstage, -, hcalled⟩
    have hend : ((ConfigWatcher.execAll {} [.watch "ns" "k" 0, .watch "ns" "k" 1]).notify oneShot
        ⟨"ns", "k", .null, .null, 0, 1, "created"⟩ 3).stage = .returned 1 := by decide +kernel
    rw [notify_unique hstage hend] at hcalled
    revert hcalled
    decide +kernel

end AgentLearning
