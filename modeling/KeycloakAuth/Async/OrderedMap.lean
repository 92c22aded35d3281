import Mathlib.Data.List.Nodup

namespace Async

/-- A finite map that keeps the order in which its keys were first set, as a JavaScript `Map` does.
No key occurs twice. -/
structure OrderedMap (κ α : Type) where
  entries : List (κ × α)
  nodup : (entries.map Prod.fst).Nodup

namespace OrderedMap
variable {κ α : Type} [DecidableEq κ]

def empty : OrderedMap κ α := ⟨[], List.nodup_nil⟩

def setEntries (key : κ) (value : α) : List (κ × α) → List (κ × α)
  | [] => [(key, value)]
  | (other, old) :: rest =>
    if other = key then (key, value) :: rest else (other, old) :: setEntries key value rest

theorem setEntries_keys (key : κ) (value : α) (entries : List (κ × α)) :
    (setEntries key value entries).map Prod.fst =
      if key ∈ entries.map Prod.fst then entries.map Prod.fst else entries.map Prod.fst ++ [key] := by
  induction entries with
  | nil => rfl
  | cons entry rest ih =>
    obtain ⟨other, old⟩ := entry
    by_cases same : other = key
    · simp [setEntries, same]
    · have different : ¬ key = other := fun equal => same equal.symm
      simp only [setEntries, same, if_false, List.map_cons, ih, List.mem_cons, different, false_or]
      split <;> rfl

/-- `set` replaces the value of a key that is present where it stands, and appends a new key. -/
def set (map : OrderedMap κ α) (key : κ) (value : α) : OrderedMap κ α where
  entries := setEntries key value map.entries
  nodup := by
    rw [setEntries_keys]
    split
    · exact map.nodup
    · rename_i absent
      refine List.nodup_append.mpr ⟨map.nodup, List.nodup_singleton key, ?_⟩
      intro old member new same
      rw [List.mem_singleton.mp same]
      rintro rfl
      exact absent member

def get (map : OrderedMap κ α) (key : κ) : Option α := (map.entries.find? (·.1 = key)).map Prod.snd

def delete (map : OrderedMap κ α) (key : κ) : OrderedMap κ α where
  entries := map.entries.filter (·.1 ≠ key)
  nodup := map.nodup.sublist ((List.filter_sublist).map _)

def values (map : OrderedMap κ α) : List α := map.entries.map Prod.snd

/-- `for (const [key, value] of map.entries()) if (…) map.delete(key)`. -/
def deleteWhere (map : OrderedMap κ α) (doomed : α → Bool) : OrderedMap κ α :=
  map.entries.foldl (fun current entry => if doomed entry.2 then current.delete entry.1 else current) map

theorem get_eq_some {map : OrderedMap κ α} {key : κ} {value : α} :
    map.get key = some value ↔ (key, value) ∈ map.entries := by
  obtain ⟨entries, nodup⟩ := map
  simp only [get]
  induction entries with
  | nil => simp
  | cons entry rest ih =>
    obtain ⟨other, old⟩ := entry
    obtain ⟨absent, rest_nodup⟩ := List.nodup_cons.mp nodup
    by_cases same : other = key
    · subst same
      have none_left : (other, value) ∉ rest := fun member =>
        absent (List.mem_map.mpr ⟨(other, value), member, rfl⟩)
      simp [none_left, eq_comm]
    · have different : ¬ key = other := fun equal => same equal.symm
      rw [List.find?_cons_of_neg (by simpa using same), ih rest_nodup]
      simp [different]

theorem setEntries_of_absent {key : κ} {entries : List (κ × α)} (value : α)
    (absent : key ∉ entries.map Prod.fst) : setEntries key value entries = entries ++ [(key, value)] := by
  induction entries with
  | nil => rfl
  | cons entry rest ih =>
    obtain ⟨other, old⟩ := entry
    simp only [List.map_cons, List.mem_cons, not_or] at absent
    have different : ¬ other = key := fun equal => absent.1 equal.symm
    simp [setEntries, different, ih absent.2]

theorem get_eq_none {map : OrderedMap κ α} {key : κ} :
    map.get key = none ↔ key ∉ map.entries.map Prod.fst := by
  simp only [get, Option.map_eq_none_iff, List.find?_eq_none, List.mem_map, not_exists, not_and]
  constructor
  · rintro absent entry member rfl
    exact absent entry member (by simp)
  · intro absent entry member same
    exact absent entry member (by simpa using same)

/-- Setting a key that is absent puts the entry last. -/
theorem set_entries_of_none {map : OrderedMap κ α} {key : κ} (value : α) (absent : map.get key = none) :
    (map.set key value).entries = map.entries ++ [(key, value)] :=
  setEntries_of_absent value (get_eq_none.mp absent)

/-- Setting a key that is present changes its value and nothing else. -/
theorem set_entries_of_some {map : OrderedMap κ α} {key : κ} {old : α} (value : α)
    (present : map.get key = some old) :
    (map.set key value).entries = map.entries.map fun entry => if entry.1 = key then (key, value) else entry := by
  have member := get_eq_some.mp present
  obtain ⟨entries, nodup⟩ := map
  simp only [set] at member ⊢
  clear present
  induction entries with
  | nil => simp at member
  | cons entry rest ih =>
    obtain ⟨other, current⟩ := entry
    obtain ⟨absent, rest_nodup⟩ := List.nodup_cons.mp nodup
    by_cases same : other = key
    · subst same
      simp only [setEntries, if_true, List.map_cons, List.cons.injEq, true_and]
      refine (List.map_id rest).symm.trans (List.map_congr_left fun pair inRest => ?_)
      have apart : pair.1 ≠ other := fun same => absent (List.mem_map.mpr ⟨pair, inRest, same⟩)
      simp [apart]
    · have different : ¬ key = other := fun equal => same equal.symm
      simp only [List.mem_cons, Prod.mk.injEq, different, false_and, false_or] at member
      simp only [setEntries, same, if_false, List.map_cons, ih rest_nodup member]

theorem mem_set {map : OrderedMap κ α} {key other : κ} {value found : α} :
    (other, found) ∈ (map.set key value).entries ↔
      other = key ∧ found = value ∨ other ≠ key ∧ (other, found) ∈ map.entries := by
  cases present : map.get key with
  | none =>
    have absent := get_eq_none.mp present
    rw [set_entries_of_none value present, List.mem_append, List.mem_singleton, Prod.mk.injEq]
    constructor
    · rintro (old | new)
      · refine .inr ⟨?_, old⟩
        rintro rfl
        exact absent (List.mem_map.mpr ⟨_, old, rfl⟩)
      · exact .inl new
    · rintro (new | ⟨_, old⟩)
      · exact .inr new
      · exact .inl old
  | some old =>
    rw [set_entries_of_some value present, List.mem_map]
    constructor
    · intro image
      obtain ⟨entry, member, same⟩ := image
      split at same
      · exact .inl ⟨(Prod.mk.inj same).1.symm, (Prod.mk.inj same).2.symm⟩
      · rename_i different
        subst same
        exact .inr ⟨different, member⟩
    · rintro (⟨rfl, rfl⟩ | ⟨different, member⟩)
      · exact ⟨(other, old), get_eq_some.mp present, by simp⟩
      · exact ⟨(other, found), member, by simp [different]⟩

theorem mem_delete {map : OrderedMap κ α} {key other : κ} {found : α} :
    (other, found) ∈ (map.delete key).entries ↔ (other, found) ∈ map.entries ∧ other ≠ key := by
  simp [delete]

@[simp] theorem get_set_self (map : OrderedMap κ α) (key : κ) (value : α) :
    (map.set key value).get key = some value :=
  get_eq_some.mpr (mem_set.mpr (.inl ⟨rfl, rfl⟩))

theorem get_set_other (map : OrderedMap κ α) {key other : κ} (value : α) (different : other ≠ key) :
    (map.set key value).get other = map.get other := by
  refine Option.ext fun found => ?_
  rw [get_eq_some, get_eq_some, mem_set]
  simp [different]

@[simp] theorem get_delete_self (map : OrderedMap κ α) (key : κ) : (map.delete key).get key = none := by
  refine Option.eq_none_iff_forall_ne_some.mpr fun found same => ?_
  exact (mem_delete.mp (get_eq_some.mp same)).2 rfl

theorem get_delete_other (map : OrderedMap κ α) {key other : κ} (different : other ≠ key) :
    (map.delete key).get other = map.get other := by
  refine Option.ext fun found => ?_
  rw [get_eq_some, get_eq_some, mem_delete]
  simp [different]

@[simp] theorem get_empty (key : κ) : (empty : OrderedMap κ α).get key = none := rfl

theorem foldl_delete_entries (doomed : α → Bool) (todo : List (κ × α)) (map : OrderedMap κ α) :
    (todo.foldl (fun current entry => if doomed entry.2 then current.delete entry.1 else current) map).entries =
      map.entries.filter fun entry => todo.all fun other => !doomed other.2 || entry.1 ≠ other.1 := by
  induction todo generalizing map with
  | nil => simp
  | cons head rest ih =>
    rw [List.foldl_cons, ih]
    by_cases dead : doomed head.2 = true
    · simp only [dead, if_true, delete, List.filter_filter, List.all_cons, Bool.not_true, Bool.false_or]
      refine List.filter_congr fun entry _ => Bool.and_comm _ _
    · simp [dead]

/-- Deleting the matching entries while iterating removes exactly those entries. -/
theorem deleteWhere_entries (map : OrderedMap κ α) (doomed : α → Bool) :
    (map.deleteWhere doomed).entries = map.entries.filter fun entry => !doomed entry.2 := by
  rw [deleteWhere, foldl_delete_entries]
  refine List.filter_congr fun entry member => ?_
  rw [Bool.eq_iff_iff, List.all_eq_true]
  constructor
  · intro apart
    simpa using apart entry member
  · intro alive other inMap
    by_cases same : entry.1 = other.1
    · have one := get_eq_some.mpr (show (entry.1, entry.2) ∈ map.entries from member)
      have two := get_eq_some.mpr (show (other.1, other.2) ∈ map.entries from inMap)
      rw [same, two] at one
      rw [Option.some.inj one]
      simpa using .inl (by simpa using alive)
    · simp [same]

omit [DecidableEq κ] in
theorem eq_of_entries {map other : OrderedMap κ α} (same : map.entries = other.entries) : map = other := by
  obtain ⟨entries, nodup⟩ := map
  cases same
  rfl

/-- Setting a key to the value that it has changes nothing. -/
theorem set_same {map : OrderedMap κ α} {key : κ} {value : α} (present : map.get key = some value) :
    map.set key value = map := by
  refine eq_of_entries ((set_entries_of_some value present).trans ?_)
  refine (List.map_congr_left fun entry member => ?_).trans (List.map_id _)
  split
  · rename_i same
    have own := get_eq_some.mpr (show (entry.1, entry.2) ∈ map.entries from member)
    rw [same, present] at own
    exact Prod.ext same.symm (Option.some.inj own)
  · rfl

theorem setEntries_setEntries (key : κ) (old value : α) (entries : List (κ × α)) :
    setEntries key value (setEntries key old entries) = setEntries key value entries := by
  induction entries with
  | nil => simp [setEntries]
  | cons entry rest ih =>
    by_cases same : entry.1 = key
    · simp [setEntries, same]
    · simp [setEntries, same, ih]

@[simp] theorem set_set (map : OrderedMap κ α) (key : κ) (old value : α) :
    (map.set key old).set key value = map.set key value :=
  eq_of_entries (setEntries_setEntries ..)

/-- `{ ...map, ...other }`. -/
def merge (map other : OrderedMap κ α) : OrderedMap κ α :=
  other.entries.foldl (fun current entry => current.set entry.1 entry.2) map

theorem get_merge (map other : OrderedMap κ α) (key : κ) :
    (map.merge other).get key = (other.get key).or (map.get key) := by
  obtain ⟨entries, nodup⟩ := other
  simp only [merge]
  induction entries generalizing map with
  | nil => rfl
  | cons entry rest ih =>
    obtain ⟨absent, rest_nodup⟩ := List.nodup_cons.mp nodup
    rw [List.foldl_cons, ih _ rest_nodup]
    by_cases same : entry.1 = key
    · have overwritten : (⟨rest, rest_nodup⟩ : OrderedMap κ α).get key = none := get_eq_none.mpr (same ▸ absent)
      rw [overwritten, same, get_set_self]
      simp [get, same]
    · have apart : key ≠ entry.1 := fun equal => same equal.symm
      rw [get_set_other _ _ apart]
      simp [get, same]

/-- Merging in what is there already changes nothing. -/
theorem merge_same {map other : OrderedMap κ α}
    (carried : ∀ key value, other.get key = some value → map.get key = some value) : map.merge other = map := by
  have each : ∀ entry ∈ other.entries, map.get entry.1 = some entry.2 := fun entry member =>
    carried entry.1 entry.2 (get_eq_some.mpr member)
  unfold merge
  generalize other.entries = entries at each
  induction entries with
  | nil => rfl
  | cons entry rest ih =>
    rw [List.foldl_cons, set_same (each entry List.mem_cons_self)]
    exact ih fun entry member => each entry (List.mem_cons_of_mem _ member)

end OrderedMap

end Async
