import Mathlib.Data.List.Forall2
import Mathlib.Data.List.Nodup

namespace Sql

variable {Row κ τ : Type} [DecidableEq κ] [DecidableEq τ]

/-- `INSERT` under a primary key, which fails if the key is taken. -/
def insert (key : Row → κ) (row : Row) (rows : List Row) : Option (List Row) :=
  if rows.any fun old => key old = key row then none else some (rows ++ [row])

/-- `INSERT … ON CONFLICT (target) DO UPDATE`: a row with the same target is updated where it stands. -/
def insertOrUpdate (key : Row → κ) (target : Row → τ) (row : Row) (set : Row → Row) (rows : List Row) :
    Option (List Row) :=
  if rows.any fun old => target old = target row then
    some (rows.map fun old => if target old = target row then set old else old)
  else insert key row rows

/-- `SELECT … LIMIT 1` without an order: the matching row that was inserted first. -/
def selectFirst (cond : Row → Bool) (rows : List Row) : Option Row := rows.find? cond

/-- `UPDATE … RETURNING`: the rows that matched, and the table afterwards. -/
def update (cond : Row → Bool) (set : Row → Row) (rows : List Row) : List Row × List Row :=
  (rows.filter cond, rows.map fun row => if cond row then set row else row)

def delete (cond : Row → Bool) (rows : List Row) : List Row := rows.filter fun row => !cond row

theorem insert_of_fresh {key : Row → κ} {row : Row} {rows : List Row} (fresh : ∀ old ∈ rows, key old ≠ key row) :
    insert key row rows = some (rows ++ [row]) := by
  have absent : rows.any (fun old => decide (key old = key row)) = false := by simpa using fresh
  simp [insert, absent]

theorem mem_of_insertOrUpdate {key : Row → κ} {target : Row → τ} {row changed : Row} {set : Row → Row}
    {rows after : List Row} (done : insertOrUpdate key target row set rows = some after)
    (member : changed ∈ after) :
    changed = row ∨ changed ∈ rows ∨ ∃ old ∈ rows, changed = set old := by
  unfold insertOrUpdate insert at done
  split at done
  · cases done
    obtain ⟨old, inRows, rfl⟩ := List.mem_map.mp member
    split
    · exact .inr (.inr ⟨old, inRows, rfl⟩)
    · exact .inr (.inl inRows)
  · split at done
    · cases done
    · cases done
      rcases List.mem_append.mp member with old | new
      · exact .inr (.inl old)
      · exact .inl (List.mem_singleton.mp new)

/-- A row with a fresh key can be put in, and what is then selected by its target is what was put in. -/
theorem selectFirst_insertOrUpdate {ν : Type} {key : Row → κ} {target : Row → τ} {row : Row} {set : Row → Row}
    {rows : List Row} (value : Row → ν) (fresh : ∀ old ∈ rows, key old ≠ key row)
    (keeps : ∀ old, target (set old) = target old) (sets : ∀ old, value (set old) = value row) :
    ∃ after, insertOrUpdate key target row set rows = some after ∧ ∀ wanted,
      (selectFirst (fun old => target old = wanted) after).map value =
        if target row = wanted then some (value row)
        else (selectFirst (fun old => target old = wanted) rows).map value := by
  unfold insertOrUpdate
  split
  · rename_i present
    refine ⟨_, rfl, fun wanted => ?_⟩
    have blind : (fun old => decide (target old = wanted)) ∘ (fun old =>
      if target old = target row then set old else old) =
        fun old => decide (target old = wanted) := by
      funext old
      simp only [Function.comp_apply]
      split
      · rw [keeps]
      · rfl
    rw [selectFirst, List.find?_map, blind, Option.map_map]
    by_cases same : target row = wanted
    · obtain ⟨old, member, hit⟩ := List.any_eq_true.mp present
      have some : (rows.find? fun old => decide (target old = wanted)).isSome = true :=
        List.find?_isSome.mpr ⟨old, member, by simpa [same] using hit⟩
      obtain ⟨first, found⟩ := Option.isSome_iff_exists.mp some
      have hit : target first = wanted := by simpa using List.find?_some found
      rw [found, if_pos same]
      simp [hit, same, sets]
    · rw [if_neg same, selectFirst]
      cases found : rows.find? fun old => decide (target old = wanted) with
      | none => rfl
      | some old =>
        have hit : target old = wanted := by simpa using List.find?_some found
        have apart : ¬ target old = target row := fun equal => same (equal.symm.trans hit)
        simp [apart]
  · rename_i absent
    refine ⟨_, insert_of_fresh fresh, fun wanted => ?_⟩
    rw [selectFirst, List.find?_append]
    by_cases same : target row = wanted
    · subst same
      have none : (rows.find? fun old => decide (target old = target row)) = none := by simpa using absent
      simp [none]
    · simp [same, selectFirst]

theorem selectFirst_delete {target : Row → τ} {gone : τ} (rows : List Row) (wanted : τ) :
    selectFirst (fun old => target old = wanted) (delete (fun old => target old = gone) rows) =
      if gone = wanted then none else selectFirst (fun old => target old = wanted) rows := by
  rw [selectFirst, delete, List.find?_filter]
  by_cases same : gone = wanted
  · rw [if_pos same, List.find?_eq_none]
    intro old _ both
    simp [same] at both
  · rw [if_neg same, selectFirst]
    congr 1
    funext old
    by_cases hit : target old = wanted
    · have apart : ¬ wanted = gone := fun equal => same equal.symm
      simp [hit, apart]
    · simp [hit]

/-- What happens to rows before they are deleted does not matter. -/
theorem delete_map {cond : Row → Bool} {set : Row → Row} {rows : List Row}
    (same : ∀ row ∈ rows, cond (set row) = cond row)
    (kept : ∀ row ∈ rows, cond row = false → set row = row) : delete cond (rows.map set) = delete cond rows := by
  induction rows with
  | nil => rfl
  | cons first rest ih =>
    have tail := ih (fun row member => same row (List.mem_cons_of_mem _ member))
      fun row member => kept row (List.mem_cons_of_mem _ member)
    rw [delete, delete] at tail ⊢
    rw [List.map_cons, List.filter_cons, List.filter_cons, tail, same first List.mem_cons_self]
    cases doomed : cond first with
    | true => rfl
    | false => rw [kept first List.mem_cons_self doomed]

/-- A row that is selected by its target and updated by its key: no other row changes. -/
theorem selectFirst_update {ν : Type} {key : Row → κ} {target : Row → τ} {row : Row}
    {set : Row → Row} {rows : List Row}
    {wanted : τ} (value : Row → ν) (put : ν) (keys : (rows.map key).Nodup)
    (found : selectFirst (fun old => target old = wanted) rows = some row)
    (keeps : ∀ old, target (set old) = target old)
    (sets : ∀ old, value (set old) = put) (other : τ) :
    (selectFirst (fun old => target old = other) (update (fun old => key old = key row) set rows).2).map value =
      if wanted = other then some put else (selectFirst (fun old => target old = other) rows).map value := by
  have blind : (fun old => decide (target old = other)) ∘ (fun old => if key old = key row then set old else old) =
      fun old => decide (target old = other) := by
    funext old
    simp only [Function.comp_apply]
    split
    · rw [keeps]
    · rfl
  have hit : target row = wanted := by simpa using List.find?_some found
  have member := List.mem_of_find?_eq_some found
  simp only [update, decide_eq_true_eq]
  rw [selectFirst, List.find?_map, blind, Option.map_map]
  by_cases same : wanted = other
  · subst same
    rw [selectFirst] at found
    simp [found, sets]
  · rw [if_neg same, selectFirst]
    cases there : rows.find? fun old => decide (target old = other) with
    | none => rfl
    | some old =>
      have aim : target old = other := by simpa using List.find?_some there
      have apart : key old ≠ key row := by
        intro equal
        rw [List.inj_on_of_nodup_map keys (List.mem_of_find?_eq_some there) member equal, hit] at aim
        exact same aim
      simp [apart]

theorem selectFirst_concat {target : Row → τ} {row : Row} {rows : List Row}
    (absent : selectFirst (fun old => target old = target row) rows = none) (other : τ) :
    selectFirst (fun old => target old = other) (rows ++ [row]) =
      if target row = other then some row else selectFirst (fun old => target old = other) rows := by
  by_cases same : target row = other
  · subst same
    rw [selectFirst] at absent
    rw [selectFirst, List.find?_append, absent]
    simp
  · simp [selectFirst, same]

section
variable {α β : Type} {R : α → β → Prop} {xs : List α} {ys : List β} {p : α → Bool} {q : β → Bool}

/-- Lists that are related pair by pair give related answers to a question that both sides answer alike. -/
theorem find?_related (related : List.Forall₂ R xs ys) (same : ∀ x y, R x y → p x = q y) :
    Option.Rel R (xs.find? p) (ys.find? q) := by
  induction related with
  | nil => exact .none
  | @cons x y _ _ head _ ih =>
    rw [List.find?_cons, List.find?_cons, same x y head]
    cases q y with
    | true => exact .some head
    | false => exact ih

theorem getElem?_related (related : List.Forall₂ R xs ys) (index : Nat) : Option.Rel R xs[index]? ys[index]? := by
  induction related generalizing index with
  | nil => exact .none
  | cons head _ ih =>
    cases index with
    | zero => exact .some head
    | succ index => simpa using ih index

theorem related_of_mem {y : β} (related : List.Forall₂ R xs ys) (member : y ∈ ys) : ∃ x ∈ xs, R x y := by
  induction related with
  | nil => cases member
  | @cons first other _ _ head _ ih =>
    rcases List.mem_cons.mp member with rfl | later
    · exact ⟨first, List.mem_cons_self .., head⟩
    · obtain ⟨x, inRest, pair⟩ := ih later
      exact ⟨x, List.mem_cons_of_mem _ inRest, pair⟩

end

end Sql
