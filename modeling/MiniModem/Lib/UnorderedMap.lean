import Mathlib.Data.List.AList

/-!
# Unordered maps

Association lists without duplicate keys, with the operations of an unordered map that the standard
association lists lack: an insertion that leaves an existing key alone (`emplace`), a change of the
value found under a key (`modify`) and of all values (`mapValues`). Each is described by what a lookup
sees afterwards.
-/

namespace MiniModem.Lib

/-- A finite map; the order of the entries carries no meaning. -/
abbrev UnorderedMap (κ α : Type*) := AList fun _ : κ => α

namespace UnorderedMap
variable {κ α : Type*} [DecidableEq κ]

/-- Insert unless the key is there already. -/
def emplace (k : κ) (v : α) (m : UnorderedMap κ α) : UnorderedMap κ α :=
  if k ∈ m then m else m.insert k v

/-- Change every value. -/
def mapValues (f : α → α) (m : UnorderedMap κ α) : UnorderedMap κ α :=
  ⟨m.entries.map fun e => ⟨e.1, f e.2⟩, by
    have keys : (m.entries.map fun e => (⟨e.1, f e.2⟩ : Sigma fun _ : κ => α)).keys = m.keys := by
      simp [List.keys, AList.keys, Function.comp_def]
    rw [List.NodupKeys, keys]
    exact m.keys_nodup⟩

/-- Change the value under a key, if there is one. -/
def modify (k : κ) (f : α → α) (m : UnorderedMap κ α) : UnorderedMap κ α :=
  match m.lookup k with
  | none => m
  | some v => m.insert k (f v)

/-- A key that is there keeps its value. -/
lemma emplace_of_mem {k : κ} {v : α} {m : UnorderedMap κ α} (mem : k ∈ m) : emplace k v m = m :=
  if_pos mem

/-- A new key is stored. -/
lemma emplace_of_notMem {k : κ} {v : α} {m : UnorderedMap κ α} (new : k ∉ m) :
    emplace k v m = m.insert k v :=
  if_neg new

/-- The keys afterwards are the new one and those before. -/
@[simp] lemma mem_emplace {k k' : κ} {v : α} {m : UnorderedMap κ α} :
    k' ∈ emplace k v m ↔ k' = k ∨ k' ∈ m := by
  by_cases mem : k ∈ m
  · rw [emplace_of_mem mem]
    refine ⟨?_, ?_⟩
    · exact .inr
    · rintro (rfl | mem')
      · exact mem
      · exact mem'
  · rw [emplace_of_notMem mem, AList.mem_insert]

/-- A new key has its value. -/
lemma lookup_emplace_self {k : κ} {v : α} {m : UnorderedMap κ α} (new : k ∉ m) :
    (emplace k v m).lookup k = some v := by
  rw [emplace_of_notMem new, AList.lookup_insert]

/-- The other keys keep their values. -/
lemma lookup_emplace_ne {k k' : κ} {v : α} {m : UnorderedMap κ α} (ne : k' ≠ k) :
    (emplace k v m).lookup k' = m.lookup k' := by
  by_cases mem : k ∈ m
  · rw [emplace_of_mem mem]
  · rw [emplace_of_notMem mem, AList.lookup_insert_ne ne]

/-- Under different keys the order of two insertions makes no difference to what is found. -/
lemma lookup_emplace_comm {k k' : κ} (ne : k ≠ k') (v v' : α) (m : UnorderedMap κ α) (i : κ) :
    (emplace k v (emplace k' v' m)).lookup i = (emplace k' v' (emplace k v m)).lookup i := by
  have one : ∀ {k k' : κ} (v v' : α), k ≠ k' →
      (emplace k v (emplace k' v' m)).lookup k = (emplace k v m).lookup k := by
    intro k k' v v' ne
    by_cases mem : k ∈ m
    · rw [emplace_of_mem mem, emplace_of_mem (mem_emplace.mpr (.inr mem)), lookup_emplace_ne ne]
    · have new : k ∉ emplace k' v' m := by
        rw [mem_emplace, not_or]
        exact ⟨ne, mem⟩
      rw [lookup_emplace_self new, lookup_emplace_self mem]
  rcases eq_or_ne i k with rfl | notK
  · rw [one v v' ne, lookup_emplace_ne ne]
  · rcases eq_or_ne i k' with rfl | notK'
    · rw [one v' v ne.symm, lookup_emplace_ne notK]
    · rw [lookup_emplace_ne notK, lookup_emplace_ne notK', lookup_emplace_ne notK', lookup_emplace_ne notK]

/-- The entries after an insertion under a new key: the new one and the old ones. -/
lemma lookup_emplace_iff {k k' : κ} {v v' : α} {m : UnorderedMap κ α} (new : k ∉ m) :
    (emplace k v m).lookup k' = some v' ↔ (k' = k ∧ v' = v) ∨ m.lookup k' = some v' := by
  rcases eq_or_ne k' k with rfl | ne
  · have none : m.lookup k' = none := AList.lookup_eq_none.mpr new
    rw [lookup_emplace_self new, none, Option.some.injEq]
    simp [eq_comm]
  · rw [lookup_emplace_ne ne]
    simp [ne]

/-- The entries after an erasure: the old ones under other keys. -/
lemma lookup_erase_iff {k k' : κ} {v : α} {m : UnorderedMap κ α} :
    (m.erase k).lookup k' = some v ↔ k' ≠ k ∧ m.lookup k' = some v := by
  rcases eq_or_ne k' k with rfl | ne
  · rw [AList.lookup_erase]
    simp
  · rw [AList.lookup_erase_ne ne]
    simp [ne]

/-- Erasing a new key again gives the old map. -/
lemma erase_emplace {k : κ} {v : α} {m : UnorderedMap κ α} (new : k ∉ m) :
    (emplace k v m).erase k = m := by
  apply AList.ext
  rw [emplace_of_notMem new]
  show List.kerase k (AList.insert k v m).entries = m.entries
  rw [AList.entries_insert_of_notMem new]
  exact List.kerase_cons_eq rfl

/-- Each key has the image of its value. -/
@[simp] lemma lookup_mapValues (k : κ) (f : α → α) (m : UnorderedMap κ α) :
    (mapValues f m).lookup k = (m.lookup k).map f :=
  @List.dlookup_map₂ κ _ (fun _ => α) (fun _ => α) m.entries (fun _ => f) k

omit [DecidableEq κ] in
/-- Two functions on the values are one. -/
lemma mapValues_mapValues (f g : α → α) (m : UnorderedMap κ α) :
    mapValues f (mapValues g m) = mapValues (fun v => f (g v)) m :=
  AList.ext (List.map_map ..)

omit [DecidableEq κ] in
/-- A change of no value. -/
lemma mapValues_eq_self {f : α → α} (same : ∀ v, f v = v) (m : UnorderedMap κ α) : mapValues f m = m := by
  apply AList.ext
  simp only [mapValues, same]
  exact List.map_id m.entries

/-- The value of the key is changed, if there is one. -/
lemma lookup_modify_self {k : κ} {f : α → α} {m : UnorderedMap κ α} :
    (modify k f m).lookup k = (m.lookup k).map f := by
  rw [modify]
  rcases e : m.lookup k with _ | v
  · simp [e]
  · simp

/-- The other values stay as they are. -/
lemma lookup_modify_ne {k k' : κ} {f : α → α} {m : UnorderedMap κ α} (ne : k' ≠ k) :
    (modify k f m).lookup k' = m.lookup k' := by
  rw [modify]
  rcases m.lookup k with _ | v
  · rfl
  · exact AList.lookup_insert_ne ne

/-- A key is there exactly if it has a value. -/
lemma mem_iff_lookup {k : κ} {m : UnorderedMap κ α} : k ∈ m ↔ ∃ v, m.lookup k = some v := by
  rw [← AList.lookup_isSome, Option.isSome_iff_exists]

end UnorderedMap

end MiniModem.Lib
