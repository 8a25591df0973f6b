import AgentLearning.Lib.Dict

/-!
# Hashes of encoded records

A hash maps fields to texts. Where every text is a record's, under the field of its key, a hash
keeps at most one record of a key, and the fields say what each operation does.
-/

/-- How records are written and read back. -/
structure RecordCodec (κ ρ τ : Type*) where
  key : ρ → κ
  encode : ρ → τ
  decode : τ → Option ρ
  decode_encode : ∀ r, decode (encode r) = some r

variable {κ ρ τ : Type*} [DecidableEq κ]

structure RecordHash (codec : RecordCodec κ ρ τ) where
  fields : Dict κ τ := ∅
  encoded : ∀ k text, fields.get? k = some text →
    ∃ r, codec.key r = k ∧ text = codec.encode r := by simp

namespace RecordHash

variable {codec : RecordCodec κ ρ τ} (hash : RecordHash codec)

/-- `HGET`, decoded. -/
def get (k : κ) : Option ρ := (hash.fields.get? k).bind codec.decode

/-- `HSET` of the record's text under its key. -/
def put (r : ρ) : RecordHash codec where
  fields := hash.fields.set (codec.key r) (codec.encode r)
  encoded k text h := by
    rw [Dict.get?_set] at h
    split_ifs at h with hk
    · exact ⟨r, hk, (Option.some.inj h).symm⟩
    · exact hash.encoded k text h

/-- `HDEL`, which counts the fields it took out. -/
def delete (k : κ) : Bool × RecordHash codec :=
  ((hash.fields.get? k).isSome,
    { fields := hash.fields.erase k
      encoded := by
        intro k' text h
        rw [Dict.get?_erase] at h
        split_ifs at h with hk
        exact hash.encoded k' text h })

/-- `HGETALL`, decoded. -/
def listAll : List ρ := hash.fields.values.filterMap codec.decode

theorem get_eq_some_iff {k : κ} {r : ρ} :
    hash.get k = some r ↔ codec.key r = k ∧ hash.fields.get? k = some (codec.encode r) := by
  unfold get
  rw [Option.bind_eq_some_iff]
  constructor
  · rintro ⟨text, hget, hdecode⟩
    obtain ⟨r', hkey, rfl⟩ := hash.encoded k text hget
    rw [codec.decode_encode] at hdecode
    obtain rfl := Option.some.inj hdecode
    exact ⟨hkey, hget⟩
  · rintro ⟨-, hget⟩
    exact ⟨codec.encode r, hget, codec.decode_encode r⟩

theorem key_of_get {k : κ} {r : ρ} (h : hash.get k = some r) : codec.key r = k :=
  (hash.get_eq_some_iff.mp h).1

theorem get_put (r : ρ) (k : κ) :
    (hash.put r).get k = if codec.key r = k then some r else hash.get k := by
  unfold get put
  rw [Dict.get?_set]
  split_ifs
  · exact codec.decode_encode r
  · rfl

theorem get_delete (k k' : κ) :
    (hash.delete k).2.get k' = if k = k' then none else hash.get k' := by
  unfold get delete
  rw [Dict.get?_erase]
  split_ifs <;> rfl

theorem map_key_listAll : hash.listAll.map codec.key = hash.fields.keys := by
  have h : ∀ entries : List (κ × τ),
      (∀ e ∈ entries, ∃ r, codec.key r = e.1 ∧ e.2 = codec.encode r) →
        ((entries.map Prod.snd).filterMap codec.decode).map codec.key = entries.map Prod.fst := by
    intro entries
    induction entries with
    | nil => simp
    | cons e entries ih =>
      intro hentries
      obtain ⟨r, hkey, htext⟩ := hentries e (by simp)
      have hrest := ih fun e' he' => hentries e' (by simp [he'])
      simpa [htext, codec.decode_encode, hkey] using hrest
  refine h hash.fields.entries fun e he => ?_
  exact hash.encoded e.1 e.2 (hash.fields.get?_eq_some_iff.mpr he)

theorem nodup_listAll : (hash.listAll.map codec.key).Nodup := by
  rw [map_key_listAll]
  exact hash.fields.nodup

theorem mem_listAll {r : ρ} : r ∈ hash.listAll ↔ hash.get (codec.key r) = some r := by
  rw [get_eq_some_iff]
  simp only [listAll, List.mem_filterMap, Dict.values, List.mem_map, true_and]
  constructor
  · rintro ⟨text, ⟨⟨k, _⟩, he, rfl⟩, hdecode⟩
    have hget := hash.fields.get?_eq_some_iff.mpr he
    obtain ⟨r', rfl, rfl⟩ := hash.encoded k _ hget
    rw [codec.decode_encode] at hdecode
    obtain rfl := Option.some.inj hdecode
    exact hget
  · intro hget
    exact ⟨codec.encode r, ⟨(codec.key r, _), hash.fields.get?_eq_some_iff.mp hget, rfl⟩,
      codec.decode_encode r⟩

end RecordHash
