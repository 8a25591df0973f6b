import Mathlib.Data.List.Forall2
import Mathlib.Data.Set.Function
import AgentLearning.ConfigBackend

/-!
# The configuration backends agree

What a backend is for: a slot for each pair of a namespace and a key, with the current record and
everything that was put there. A call changes the slot of one pair only, as long as the keys of the
backend tell the pairs apart (`slot_exec`), and two such backends give the same answers. The keys of
the dictionary do not tell all pairs apart.
-/

namespace AgentLearning

inductive ConfigCall
  | get (ns key : String)
  | put (record : ConfigRecord)
  | delete (ns key : String)
  | listByNamespace (ns : String)
  | listAll
  | getHistory (ns key : String)
  | clear

inductive ConfigAnswer
  | done
  | current (record : Option ConfigRecord)
  | deleted (existed : Bool)
  | listing (records : List ConfigRecord)
  | history (records : List ConfigRecord)

/-- The same answer, but a listing may be in another order. -/
inductive ConfigAnswer.Agrees : ConfigAnswer → ConfigAnswer → Prop
  | refl (a : ConfigAnswer) : Agrees a a
  | listing {l l' : List ConfigRecord} (h : l.Perm l') : Agrees (.listing l) (.listing l')

/-- What is kept for one pair. -/
structure ConfigSlot where
  current : Option ConfigRecord := none
  history : List ConfigRecord := []

namespace ConfigCall

/-- The pair that the call names. -/
def pair? : ConfigCall → Option (String × String)
  | get ns key => some (ns, key)
  | put record => some record.pair
  | delete ns key => some (ns, key)
  | getHistory ns key => some (ns, key)
  | _ => none

/-- If the call names a pair, it is one of these. -/
def Within (pairs : Set (String × String)) (call : ConfigCall) : Prop :=
  ∀ p ∈ call.pair?, p ∈ pairs

/-- The call names this pair or none. -/
def concerns (p : String × String) (call : ConfigCall) : Bool := ∀ p' ∈ call.pair?, p' = p

/-- What a call does to the slot of a pair. -/
def onSlot (p : String × String) : ConfigCall → ConfigSlot → ConfigSlot
  | put record, slot =>
    if record.pair = p then { current := some record, history := slot.history ++ [record] }
    else slot
  | delete ns key, slot => if (ns, key) = p then { slot with current := none } else slot
  | clear, _ => {}
  | _, slot => slot

variable {β κ : Type} [DecidableEq κ] [ConfigBackend β κ]

def exec (b : β) : ConfigCall → ConfigAnswer × β
  | get ns key => (.current (ConfigBackend.get b ns key), b)
  | put record => (.done, ConfigBackend.put b record)
  | delete ns key =>
    (.deleted (ConfigBackend.delete b ns key).1, (ConfigBackend.delete b ns key).2)
  | listByNamespace ns => (.listing (ConfigBackend.listByNamespace b ns), b)
  | listAll => (.listing (ConfigBackend.listAll b), b)
  | getHistory ns key => (.history (ConfigBackend.getHistory b ns key), b)
  | clear => (.done, ConfigBackend.clear b)

end ConfigCall

namespace ConfigBackend

open ConfigCall

variable {β κ : Type} [DecidableEq κ] [ConfigBackend β κ]

def run (b : β) (calls : List ConfigCall) : β := calls.foldl (fun b call => (call.exec b).2) b

def answers (b : β) : List ConfigCall → List ConfigAnswer
  | [] => []
  | call :: calls => (call.exec b).1 :: answers (call.exec b).2 calls

def slot (b : β) (p : String × String) : ConfigSlot where
  current := get b p.1 p.2
  history := getHistory b p.1 p.2

/-! ## One slot for each pair -/

section Slots

variable {pairs : Set (String × String)} {p : String × String} {call : ConfigCall}
  {calls : List ConfigCall}

theorem slot_exec (hkeys : pairs.InjOn (keyOf β)) (hp : p ∈ pairs) (hcall : call.Within pairs)
    (b : β) : slot (call.exec b).2 p = call.onSlot p (slot b p) := by
  cases call with
  | put record =>
    have hrecord : record.pair ∈ pairs := hcall _ rfl
    have hkey : keyOf β record.pair = keyOf β p ↔ record.pair = p := hkeys.eq_iff hrecord hp
    simp only [exec, slot, onSlot, get_put, getHistory_put, hkey]
    split_ifs <;> rfl
  | delete ns key =>
    have hpair : (ns, key) ∈ pairs := hcall _ rfl
    have hkey : keyOf β (ns, key) = keyOf β p ↔ (ns, key) = p := hkeys.eq_iff hpair hp
    simp only [exec, slot, onSlot, get_delete, getHistory_delete, hkey]
    split_ifs <;> rfl
  | clear => simp only [exec, slot, onSlot, clear_eq, get_empty, getHistory_empty]
  | _ => rfl

theorem onSlot_of_not_concerns (h : ¬ call.concerns p) (s : ConfigSlot) :
    call.onSlot p s = s := by
  cases call with
  | put record =>
    have hne : record.pair ≠ p := by simpa [concerns, pair?] using h
    exact if_neg hne
  | delete ns key =>
    have hne : (ns, key) ≠ p := by simpa [concerns, pair?] using h
    exact if_neg hne
  | clear => simp [concerns, pair?] at h
  | _ => rfl

theorem slot_run (hkeys : pairs.InjOn (keyOf β)) (hp : p ∈ pairs)
    (hcalls : ∀ call ∈ calls, call.Within pairs) (b : β) :
    slot (run b calls) p = calls.foldl (fun s call => call.onSlot p s) (slot b p) := by
  induction calls generalizing b with
  | nil => rfl
  | cons call calls ih =>
    rw [List.forall_mem_cons] at hcalls
    rw [List.foldl_cons, ← slot_exec hkeys hp hcalls.1 b]
    exact ih hcalls.2 (call.exec b).2

/-- The calls that name other pairs leave no trace in the slot of a pair. -/
theorem slot_run_filter (hkeys : pairs.InjOn (keyOf β)) (hp : p ∈ pairs)
    (hcalls : ∀ call ∈ calls, call.Within pairs) (b : β) :
    slot (run b calls) p = slot (run b (calls.filter (concerns p))) p := by
  rw [slot_run hkeys hp hcalls, slot_run hkeys hp fun call hcall =>
    hcalls call (List.mem_filter.mp hcall).1]
  generalize slot b p = s
  clear hcalls
  induction calls generalizing s with
  | nil => rfl
  | cons call calls ih =>
    by_cases hcall : call.concerns p
    · rw [List.filter_cons_of_pos hcall]
      exact ih _
    · rw [List.filter_cons_of_neg hcall, List.foldl_cons, onSlot_of_not_concerns hcall]
      exact ih s

/-- What is listed was put. -/
theorem pair_mem_exec (hcall : call.Within pairs) {b : β}
    (hlisted : ∀ r ∈ ConfigBackend.listAll b, r.pair ∈ pairs) :
    ∀ r ∈ ConfigBackend.listAll (call.exec b).2, r.pair ∈ pairs := by
  simp only [mem_listAll] at hlisted ⊢
  intro r hr
  cases call with
  | put record =>
    simp only [exec, get_put] at hr
    split_ifs at hr
    · cases hr
      exact hcall _ rfl
    · exact hlisted r hr
  | delete ns key =>
    simp only [exec, get_delete] at hr
    split_ifs at hr
    exact hlisted r hr
  | clear =>
    simp only [exec, clear_eq, get_empty] at hr
    cases hr
  | _ => exact hlisted r hr

end Slots

/-! ## Two backends -/

section Two

variable {β' κ' : Type} [DecidableEq κ'] [ConfigBackend β' κ'] {pairs : Set (String × String)}
  {b : β} {b' : β'}

/-- The backends have the same slots for these pairs, and no records of others. -/
structure Matches (pairs : Set (String × String)) (b : β) (b' : β') : Prop where
  slot : ∀ p ∈ pairs, slot b p = slot b' p
  listed : ∀ r ∈ ConfigBackend.listAll b, r.pair ∈ pairs
  listed' : ∀ r ∈ ConfigBackend.listAll b', r.pair ∈ pairs

theorem Matches.get (h : Matches pairs b b') {ns key : String} (hp : (ns, key) ∈ pairs) :
    ConfigBackend.get b ns key = ConfigBackend.get b' ns key :=
  congrArg ConfigSlot.current (h.slot (ns, key) hp)

theorem Matches.getHistory (h : Matches pairs b b') {ns key : String} (hp : (ns, key) ∈ pairs) :
    ConfigBackend.getHistory b ns key = ConfigBackend.getHistory b' ns key :=
  congrArg ConfigSlot.history (h.slot (ns, key) hp)

theorem Matches.listAll_perm (h : Matches pairs b b') :
    (ConfigBackend.listAll b).Perm (ConfigBackend.listAll b') := by
  refine (List.perm_ext_iff_of_nodup (nodup_listAll b) (nodup_listAll b')).mpr fun r => ?_
  constructor
  · intro hr
    have hp : (r.ns, r.key) ∈ pairs := h.listed r hr
    rwa [mem_listAll, ← h.get hp, ← mem_listAll]
  · intro hr
    have hp : (r.ns, r.key) ∈ pairs := h.listed' r hr
    rwa [mem_listAll, h.get hp, ← mem_listAll]

theorem Matches.agrees (h : Matches pairs b b') {call : ConfigCall} (hcall : call.Within pairs) :
    (call.exec b).1.Agrees (call.exec b').1 := by
  cases call with
  | get ns key =>
    simp only [exec, h.get (hcall _ rfl)]
    exact .refl _
  | put record => exact .refl _
  | delete ns key =>
    simp only [exec, delete_fst, h.get (hcall _ rfl)]
    exact .refl _
  | listByNamespace ns =>
    simp only [exec, listByNamespace_eq]
    exact .listing (h.listAll_perm.filter _)
  | listAll => exact .listing h.listAll_perm
  | getHistory ns key =>
    simp only [exec, h.getHistory (hcall _ rfl)]
    exact .refl _
  | clear => exact .refl _

theorem Matches.exec (hkeys : pairs.InjOn (keyOf β)) (hkeys' : pairs.InjOn (keyOf β'))
    (h : Matches pairs b b') {call : ConfigCall} (hcall : call.Within pairs) :
    Matches pairs (call.exec b).2 (call.exec b').2 where
  slot p hp := by rw [slot_exec hkeys hp hcall, slot_exec hkeys' hp hcall, h.slot p hp]
  listed := pair_mem_exec hcall h.listed
  listed' := pair_mem_exec hcall h.listed'

theorem Matches.answers (hkeys : pairs.InjOn (keyOf β)) (hkeys' : pairs.InjOn (keyOf β')) :
    ∀ {calls : List ConfigCall} {b : β} {b' : β'}, Matches pairs b b' →
      (∀ call ∈ calls, call.Within pairs) →
        List.Forall₂ ConfigAnswer.Agrees (answers b calls) (answers b' calls)
  | [], _, _, _, _ => .nil
  | _ :: _, _, _, h, hcalls => by
    rw [List.forall_mem_cons] at hcalls
    exact .cons (h.agrees hcalls.1) ((h.exec hkeys hkeys' hcalls.1).answers hkeys hkeys' hcalls.2)

theorem Matches.empty : Matches pairs (empty : β) (empty : β') where
  slot p _ := by simp only [ConfigBackend.slot, get_empty, getHistory_empty]
  listed r hr := by
    rw [mem_listAll, get_empty] at hr
    cases hr
  listed' r hr := by
    rw [mem_listAll, get_empty] at hr
    cases hr

end Two

end ConfigBackend

open ConfigBackend ConfigCall

/-- The two calls that tell the pairs apart in SQLite. -/
theorem not_agree_of_compositeKey_eq {p p' : String × String} (hne : p ≠ p')
    (hkey : keyOf InMemoryConfigBackend p = keyOf InMemoryConfigBackend p')
    (record : ConfigRecord) (hrecord : record.pair = p) :
    ¬ List.Forall₂ ConfigAnswer.Agrees
      (answers (empty : InMemoryConfigBackend) [.put record, .get p'.1 p'.2])
      (answers (empty : SQLiteConfigBackend) [.put record, .get p'.1 p'.2]) := by
  have hget : ConfigBackend.get (ConfigBackend.put (empty : InMemoryConfigBackend) record)
      p'.1 p'.2 = some record := by
    rw [get_put, hrecord, if_pos hkey]
  have hget' : ConfigBackend.get (ConfigBackend.put (empty : SQLiteConfigBackend) record)
      p'.1 p'.2 = none := by
    have hkey' : keyOf SQLiteConfigBackend p ≠ keyOf SQLiteConfigBackend (p'.1, p'.2) := hne
    rw [get_put, hrecord, if_neg hkey', get_empty]
  simp only [answers, exec, hget, hget', List.forall₂_cons]
  rintro ⟨-, h, -⟩
  cases h

/-- Over calls that name only these pairs, the backends answer the same and keep the pairs apart,
exactly if the dictionary has different keys for different pairs. -/
theorem configBackends_agree_iff (pairs : Set (String × String)) :
    (∀ calls : List ConfigCall, (∀ call ∈ calls, call.Within pairs) →
      List.Forall₂ ConfigAnswer.Agrees (answers (empty : InMemoryConfigBackend) calls)
        (answers (empty : SQLiteConfigBackend) calls) ∧
      ∀ p ∈ pairs,
        slot (run (empty : InMemoryConfigBackend) calls) p
          = slot (run (empty : InMemoryConfigBackend) (calls.filter (concerns p))) p ∧
        slot (run (empty : SQLiteConfigBackend) calls) p
          = slot (run (empty : SQLiteConfigBackend) (calls.filter (concerns p))) p) ↔
      pairs.InjOn fun p => InMemoryConfigBackend.compositeKey p.1 p.2 := by
  constructor
  · intro h p hp p' hp' hkey
    by_contra hne
    let record : ConfigRecord :=
      { ns := p.1, key := p.2, value := .null, version := 1, configType := "", updatedAt := 0 }
    refine not_agree_of_compositeKey_eq hne hkey record rfl (h _ ?_).1
    simp only [List.forall_mem_cons, Within, pair?, Option.mem_some, forall_eq']
    exact ⟨hp, hp', nofun⟩
  · intro hkeys calls hcalls
    have hkeys' : pairs.InjOn (keyOf SQLiteConfigBackend) := fun _ _ _ _ h => h
    refine ⟨Matches.empty.answers hkeys hkeys' hcalls, fun p hp => ?_⟩
    exact ⟨slot_run_filter hkeys hp hcalls _, slot_run_filter hkeys' hp hcalls _⟩

/-- The pair of the key `c` in `a::b` and that of `b::c` in `a` are one entry in memory. -/
theorem configBackends_disagree :
    let record : ConfigRecord :=
      { ns := "a::b", key := "c", value := .bool true, version := 1, configType := "feature_flag"
        updatedAt := 0 }
    ¬ List.Forall₂ ConfigAnswer.Agrees
      (answers (empty : InMemoryConfigBackend) [.put record, .get "a" "b::c"])
      (answers (empty : SQLiteConfigBackend) [.put record, .get "a" "b::c"]) := by
  intro record
  have hne : record.pair ≠ ("a", "b::c") := by decide
  have hkey : keyOf InMemoryConfigBackend record.pair
      = keyOf InMemoryConfigBackend ("a", "b::c") := by
    decide
  exact not_agree_of_compositeKey_eq hne hkey record rfl

/-- A namespace without a colon is what stands before the first colon of the key. -/
theorem injOn_compositeKey : {p : String × String | ':' ∉ p.1.toList}.InjOn fun p =>
    InMemoryConfigBackend.compositeKey p.1 p.2 := by
  have hns : ∀ ns key : String, ':' ∉ ns.toList →
      (InMemoryConfigBackend.compositeKey ns key).toList.takeWhile (· ≠ ':') = ns.toList := by
    intro ns key hcolon
    have hmem : ∀ c ∈ ns.toList, decide (c ≠ ':') := fun c hc => by
      rw [decide_eq_true_eq]
      rintro rfl
      exact hcolon hc
    have hkey : (InMemoryConfigBackend.compositeKey ns key).toList
        = ns.toList ++ ':' :: ':' :: key.toList := by
      simp [InMemoryConfigBackend.compositeKey, String.toList_append]
    rw [hkey, List.takeWhile_append_of_pos hmem]
    simp
  rintro ⟨ns, key⟩ hp ⟨ns', key'⟩ hp' hkey
  have hns : ns = ns' := by
    rw [← String.toList_inj, ← hns ns key hp, ← hns ns' key' hp']
    exact congrArg _ (congrArg _ hkey)
  subst hns
  have hlist := congrArg String.toList hkey
  simp only [InMemoryConfigBackend.compositeKey, String.toList_append, List.append_cancel_left_eq,
    String.toList_inj] at hlist
  rw [hlist]

end AgentLearning
