import KeycloakAuth.Service

namespace KeycloakAuth
open Async InMemoryTokenStore

/-- A call that a store has answered, and when. -/
structure Performed where
  time : Nat
  call : StoreCall
  answer : call.Ans

namespace Performed

/-- The deletion of a record: of all records of its user, or of the expired ones after it has expired. -/
def removes (record : TokenRecord) : Performed → Bool
  | ⟨_, .deleteAllForUser userId, _⟩ => record.userId = userId
  | ⟨time, .deleteExpired, _⟩ => record.expiresAt.before time
  | _ => false

/-- A `markConsumed` that returned true. -/
def marks (id : Str) : Performed → Bool
  | ⟨_, .markConsumed other, answer⟩ => other = id && answer
  | _ => false

def saved : Performed → Option TokenRecord
  | ⟨_, .save record, _⟩ => some record
  | _ => none

/-- What is written to an entry of the user data: a value, or nothing for a deletion. -/
def writes (userId key : String) : Performed → Option (Option Str)
  | ⟨_, .saveUserData user name value, _⟩ => if user = userId ∧ name = key then some (some value) else none
  | ⟨_, .deleteUserData user name, _⟩ => if user = userId ∧ name = key then some none else none
  | _ => none

end Performed

/-- A record was saved, after what came `before` it. -/
def SavedIn (history before : List Performed) (saved : TokenRecord) (after : List Performed) : Prop :=
  ∃ performed, history = before ++ performed :: after ∧ performed.saved = some saved

def Survives (saved : TokenRecord) (after : List Performed) : Prop :=
  ∀ performed ∈ after, performed.removes saved = false

/-- A saved record as it is given back: with the hash of its token, and consumed if it was saved so or has been
marked. -/
structure GivenBack (history : List Performed) (saved record : TokenRecord) : Prop where
  fields : record = { saved with token := hashToken saved.token, consumedAt := record.consumedAt }
  consumed : record.consumedAt.isSome = true ↔
    saved.consumedAt.isSome = true ∨ ∃ performed ∈ history, performed.marks saved.id = true

/-- The last thing that was written to an entry of the user data: a value, or nothing for a deletion. -/
def LastWritten (history : List Performed) (userId key : String) (value : Option Str) : Prop :=
  ∃ before performed after, history = before ++ performed :: after ∧ performed.writes userId key = some value ∧
    ∀ later ∈ after, later.writes userId key = none

/-- What the contract allows as the answer to a call. -/
def Contract (history : List Performed) : (call : StoreCall) → call.Ans → Prop
  | .findByToken token type, answer =>
    (answer = none ↔ ∀ before saved after, SavedIn history before saved after → saved.token = token →
      saved.type = type → ¬ Survives saved after) ∧
    ∀ record, answer = some record → ∃ before saved after, SavedIn history before saved after ∧
      saved.token = token ∧ saved.type = type ∧ Survives saved after ∧ GivenBack history saved record ∧
      ∀ earlier other later, SavedIn history earlier other later → other.token = token → other.type = type →
        Survives other later → before.length ≤ earlier.length
  | .markConsumed id, answer =>
    answer = true ↔ ∃ before saved after, SavedIn history before saved after ∧ saved.id = id ∧
      Survives saved after ∧ saved.consumedAt = none ∧ ∀ performed ∈ history, performed.marks id = false
  | .getUserData userId key, answer =>
    ∀ value, answer = some value ↔ LastWritten history userId key (some value)
  | _, _ => True

/-- A fresh store that has answered `history`. -/
inductive Ran : List Performed → InMemoryTokenStore → Prop
  | start : Ran [] .empty
  | next {history store} (time : Nat) (call : StoreCall) : Ran history store →
      Ran (history ++ [⟨time, call, (answerStore time call store).1⟩]) (answerStore time call store).2

/-- The ids of the records that were saved. -/
def savedIds (history : List Performed) : List Str := (history.filterMap Performed.saved).map (·.id)

/-- The contract holds of the next answer, and no record has been taken twice. -/
structure MeetsContract (history : List Performed) (store : InMemoryTokenStore) : Prop where
  answers : ∀ time call, Contract history call (answerStore time call store).1
  once : ∀ id, history.countP (·.marks id) ≤ 1

/-- A saved record after what has been done since. -/
def aged (saved : TokenRecord) (after : List Performed) : TokenRecord :=
  { saved with
    token := hashToken saved.token
    consumedAt := saved.consumedAt.or
      (after.findSome? fun performed => if performed.marks saved.id then some (.ofMs performed.time) else none) }

def live : List Performed → List TokenRecord
  | [] => []
  | performed :: after =>
    match performed.saved with
    | none => live after
    | some saved => if after.any (·.removes saved) then live after else aged saved after :: live after

namespace Performed

/-- What a call does to a record that it leaves on file. -/
def touch (performed : Performed) (record : TokenRecord) : TokenRecord :=
  { record with consumedAt :=
      record.consumedAt.or (if performed.marks record.id then some (.ofMs performed.time) else none) }

theorem touch_eq_id {performed : Performed} (blind : ∀ id, performed.marks id = false) : performed.touch = id := by
  funext record
  simp [touch, blind]

theorem removes_of_saved {performed : Performed} {record : TokenRecord} (saves : performed.saved = some record)
    (other : TokenRecord) : performed.removes other = false := by
  obtain ⟨time, call, answer⟩ := performed
  cases call <;> simp_all [saved, removes]

theorem marks_of_saved {performed : Performed} {record : TokenRecord} (saves : performed.saved = some record)
    (id : Str) : performed.marks id = false := by
  obtain ⟨time, call, answer⟩ := performed
  cases call <;> simp_all [saved, marks]

theorem removes_aged (performed : Performed) (record : TokenRecord) (after : List Performed) :
    performed.removes (aged record after) = performed.removes record := by
  obtain ⟨time, call, answer⟩ := performed
  cases call <;> rfl

end Performed

theorem aged_concat (record : TokenRecord) (after : List Performed) (performed : Performed) :
    aged record (after ++ [performed]) = performed.touch (aged record after) := by
  simp only [aged, Performed.touch, List.findSome?_append, Option.or_assoc, List.findSome?_cons, List.findSome?_nil]
  split <;> simp_all

theorem live_concat_saved {performed : Performed} {saved : TokenRecord} (saves : performed.saved = some saved)
    (history : List Performed) :
    live (history ++ [performed]) = live history ++ [{ saved with token := hashToken saved.token }] := by
  induction history with
  | nil => simp [live, saves, aged]
  | cons first rest ih =>
    have same (record : TokenRecord) : aged record (rest ++ [performed]) = aged record rest := by
      rw [aged_concat]
      simp [Performed.touch, Performed.marks_of_saved saves]
    simp only [List.cons_append, live, ih, same, List.any_append, List.any_cons, List.any_nil,
      Performed.removes_of_saved saves, Bool.or_false]
    cases first.saved with
    | none => rfl
    | some record => simp only; split <;> rfl

theorem live_concat {performed : Performed} (other : performed.saved = none) (history : List Performed) :
    live (history ++ [performed]) =
      ((live history).filter fun record => !performed.removes record).map performed.touch := by
  induction history with
  | nil => simp [live, other]
  | cons first rest ih =>
    simp only [List.cons_append, live, ih, aged_concat, List.any_append, List.any_cons, List.any_nil, Bool.or_false]
    cases first.saved with
    | none => rfl
    | some record =>
      by_cases gone : rest.any (·.removes record) = true
      · simp [gone]
      · cases last : performed.removes record with
        | true => simp [gone, last, Performed.removes_aged]
        | false => simp [gone, last, Performed.removes_aged]

theorem savedIn_cons {first : Performed} {rest before after : List Performed} {saved : TokenRecord} :
    SavedIn (first :: rest) before saved after ↔
      (before = [] ∧ rest = after ∧ first.saved = some saved) ∨
        ∃ earlier, before = first :: earlier ∧ SavedIn rest earlier saved after := by
  constructor
  · rintro ⟨performed, split, saves⟩
    rcases List.cons_eq_append_iff.mp split with ⟨rfl, same⟩ | ⟨earlier, rfl, more⟩
    · obtain ⟨rfl, rfl⟩ := List.cons.inj same
      exact .inl ⟨rfl, rfl, saves⟩
    · exact .inr ⟨earlier, rfl, performed, more, saves⟩
  · rintro (⟨rfl, rfl, saves⟩ | ⟨earlier, rfl, performed, rfl, saves⟩)
    · exact ⟨first, rfl, saves⟩
    · exact ⟨performed, rfl, saves⟩

theorem survives_iff {saved : TokenRecord} {after : List Performed} :
    Survives saved after ↔ after.any (·.removes saved) = false := by
  simp [Survives]

theorem mem_live {record : TokenRecord} {history : List Performed} :
    record ∈ live history ↔ ∃ before saved after, SavedIn history before saved after ∧ Survives saved after ∧
      record = aged saved after := by
  induction history with
  | nil =>
    constructor
    · intro member
      cases member
    · rintro ⟨before, saved, after, ⟨performed, split, -⟩, -⟩
      cases before <;> cases split
  | cons first rest ih =>
    have later : (∃ before saved after, SavedIn rest before saved after ∧ Survives saved after ∧
        record = aged saved after) → ∃ before saved after, SavedIn (first :: rest) before saved after ∧
          Survives saved after ∧ record = aged saved after := by
      rintro ⟨before, saved, after, saves, kept⟩
      exact ⟨first :: before, saved, after, savedIn_cons.mpr (.inr ⟨before, rfl, saves⟩), kept⟩
    constructor
    · intro member
      cases saves : first.saved with
      | none =>
        simp only [live, saves] at member
        exact later (ih.mp member)
      | some saved =>
        simp only [live, saves] at member
        split at member
        · exact later (ih.mp member)
        · rename_i kept
          rcases List.mem_cons.mp member with rfl | member
          · exact ⟨[], saved, rest, savedIn_cons.mpr (.inl ⟨rfl, rfl, saves⟩),
              survives_iff.mpr (by simpa using kept), rfl⟩
          · exact later (ih.mp member)
    · rintro ⟨before, saved, after, saves, kept, rfl⟩
      rcases savedIn_cons.mp saves with ⟨rfl, rfl, here⟩ | ⟨earlier, rfl, inRest⟩
      · simp [live, here, survives_iff.mp kept]
      · have member := ih.mpr ⟨earlier, saved, after, inRest, kept, rfl⟩
        simp only [live]
        split
        · exact member
        · split
          · exact member
          · exact List.mem_cons_of_mem _ member

/-- The first record on file of a kind is the earliest surviving one that was saved. -/
theorem find_live {wanted asked : TokenRecord → Bool} (same : ∀ saved after,
    wanted (aged saved after) = asked saved)
    {history : List Performed} {record : TokenRecord} (found : (live history).find? wanted = some record) :
    ∃ before saved after, SavedIn history before saved after ∧ asked saved = true ∧ Survives saved after ∧
      record = aged saved after ∧ ∀ earlier other later, SavedIn history earlier other later → asked other = true →
        Survives other later → before.length ≤ earlier.length := by
  induction history with
  | nil => cases found
  | cons first rest ih =>
    have later (found : (live rest).find? wanted = some record)
        (passed : ∀ saved, first.saved = some saved → asked saved = true → ¬ Survives saved rest) :
        ∃ before saved after, SavedIn (first :: rest) before saved after ∧
          asked saved = true ∧ Survives saved after ∧
          record = aged saved after ∧ ∀ earlier other later, SavedIn (first :: rest) earlier other later →
            asked other = true → Survives other later → before.length ≤ earlier.length := by
      obtain ⟨before, saved, after, saves, asked, kept, aged, least⟩ := ih found
      refine ⟨first :: before, saved, after, savedIn_cons.mpr (.inr ⟨before, rfl, saves⟩), asked, kept, aged, ?_⟩
      intro earlier other more savesOther askedOther keptOther
      rcases savedIn_cons.mp savesOther with ⟨rfl, rfl, here⟩ | ⟨sooner, rfl, inRest⟩
      · exact absurd keptOther (passed other here askedOther)
      · exact Nat.succ_le_succ (least sooner other more inRest askedOther keptOther)
    cases saves : first.saved with
    | none =>
      simp only [live, saves] at found
      refine later found fun saved no => ?_
      rw [saves] at no
      cases no
    | some saved =>
      simp only [live, saves] at found
      split at found
      · rename_i gone
        refine later found fun other savesOther _ kept => ?_
        cases saves.symm.trans savesOther
        rw [survives_iff.mp kept] at gone
        cases gone
      · rename_i kept
        rw [List.find?_cons] at found
        split at found
        · rename_i matched
          cases found
          refine ⟨[], saved, rest, savedIn_cons.mpr (.inl ⟨rfl, rfl, saves⟩), by rw [← same saved rest, matched],
            survives_iff.mpr (by simpa using kept), rfl, fun _ _ _ _ _ _ => Nat.zero_le _⟩
        · rename_i unmatched
          refine later found fun other savesOther askedOther _ => ?_
          cases saves.symm.trans savesOther
          rw [same, askedOther] at unmatched
          cases unmatched

theorem savedIds_append (before after : List Performed) :
    savedIds (before ++ after) = savedIds before ++ savedIds after := by simp [savedIds]

theorem savedIds_saved {performed : Performed} {saved : TokenRecord} (saves : performed.saved = some saved)
    (after : List Performed) : savedIds (performed :: after) =
      saved.id :: savedIds after := by simp [savedIds, saves]

theorem mem_savedIds {history before after : List Performed} {saved : TokenRecord}
    (saves : SavedIn history before saved after) : saved.id ∈ savedIds history := by
  obtain ⟨performed, rfl, saves⟩ := saves
  simp [savedIds, saves]

theorem Ran.earlier {history before : List Performed} {store : InMemoryTokenStore} (ran : Ran history store)
    (early : before <+: history) : ∃ earlier, Ran before earlier := by
  induction ran with
  | start =>
    rw [List.prefix_nil.mp early]
    exact ⟨_, .start⟩
  | next time call ran ih =>
    rcases List.prefix_concat_iff.mp early with rfl | before
    · exact ⟨_, .next time call ran⟩
    · exact ih before

/-- With ids of their own, the records on file are the surviving ones in the order in which they were saved. -/
theorem Ran.records {history : List Performed} {store : InMemoryTokenStore} (ran : Ran history store)
    (distinct : (savedIds history).Nodup) : store.records = live history := by
  induction ran with
  | start => rfl
  | @next history store time call _ ih =>
    rw [savedIds_append] at distinct
    have ih := ih (distinct.sublist (List.sublist_append_left ..))
    have untouched (performed : Performed) (other : performed.saved = none)
        (keeps : ∀ record, performed.removes record = false) (blind : ∀ id, performed.marks id = false) :
        live (history ++ [performed]) = store.records := by
      simp [live_concat other, ih, keeps, Performed.touch_eq_id blind]
    cases call with
    | save record =>
      rw [live_concat_saved rfl, ← ih]
      refine save_records_of_fresh fun old member => ?_
      rw [ih] at member
      obtain ⟨before, saved, after, saves, -, rfl⟩ := mem_live.mp member
      intro same
      have twice := (List.nodup_append.mp distinct).2.2 _ (mem_savedIds saves) record.id
        (by rw [savedIds_saved rfl]; exact List.mem_cons_self ..)
      exact twice same
    | deleteExpired =>
      rw [live_concat rfl, ← ih, Performed.touch_eq_id fun _ => rfl, List.map_id]
      exact deleteRecords_records ..
    | deleteAllForUser userId =>
      rw [live_concat rfl, ← ih, Performed.touch_eq_id fun _ => rfl, List.map_id]
      exact deleteRecords_records ..
    | markConsumed id =>
      change (store.markConsumed id time).2.records =
        live (history ++ [⟨time, .markConsumed id, (store.markConsumed id time).1⟩])
      rcases markConsumed_cases store id time with ⟨record, member, named, unused, marked, after⟩ | ⟨used, refused⟩
      · rw [marked, after, live_concat rfl, ← ih]
        simp only [Performed.removes, Bool.not_false, List.filter_true]
        refine List.map_congr_left fun other inStore => ?_
        by_cases same : other.id = id
        · obtain rfl := eq_of_id_eq inStore member (same.trans named.symm)
          simp [consume, Performed.touch, Performed.marks, same, unused]
        · have apart : ¬ id = other.id := fun equal => same equal.symm
          simp [consume, Performed.touch, Performed.marks, same, apart]
      · rw [refused]
        exact (untouched _ rfl (fun _ => rfl) fun other => by simp [Performed.marks]).symm
    | findByToken token type => exact (untouched _ rfl (fun _ => rfl) fun _ => rfl).symm
    | saveUserData userId key value => exact (untouched _ rfl (fun _ => rfl) fun _ => rfl).symm
    | getUserData userId key => exact (untouched _ rfl (fun _ => rfl) fun _ => rfl).symm
    | deleteUserData userId key =>
      exact (deleteUserData_records ..).trans (untouched _ rfl (fun _ => rfl) fun _ => rfl).symm

theorem Ran.answered {history before after : List Performed} {performed : Performed} {store : InMemoryTokenStore}
    (ran : Ran history store) (split : history = before ++ performed :: after) :
    ∃ earlier, Ran before earlier ∧ performed.answer = (answerStore performed.time performed.call earlier).1 := by
  have early : before ++ [performed] <+: history := ⟨after, by simp [split]⟩
  obtain ⟨middle, ran⟩ := ran.earlier early
  generalize whole : before ++ [performed] = prior at ran
  cases ran with
  | start => simp at whole
  | next time call ran =>
    obtain ⟨rfl, last⟩ := List.append_inj' whole rfl
    cases last
    exact ⟨_, ran, rfl⟩

section
variable {history : List Performed} {store : InMemoryTokenStore}

theorem Ran.id_saved (ran : Ran history store) (distinct : (savedIds history).Nodup) {record : TokenRecord}
    (member : record ∈ store.records) : record.id ∈ savedIds history := by
  rw [ran.records distinct] at member
  obtain ⟨before, saved, after, saves, -, rfl⟩ := mem_live.mp member
  exact @mem_savedIds _ _ _ saved saves

/-- A record is marked after it has been saved. -/
theorem Ran.marked_after (ran : Ran history store) (distinct : (savedIds history).Nodup)
    {before after : List Performed}
    {saved : TokenRecord} (saves : SavedIn history before saved after) {performed : Performed}
    (member : performed ∈ history) (marks : performed.marks saved.id = true) : performed ∈ after := by
  obtain ⟨first, split, isSave⟩ := saves
  rw [split, List.mem_append, List.mem_cons] at member
  rcases member with early | rfl | later
  · exfalso
    obtain ⟨sooner, between, rfl⟩ := List.append_of_mem early
    obtain ⟨earlier, ran', answer⟩ := ran.answered (split.trans (List.append_assoc ..))
    have ids : savedIds history = savedIds sooner ++ savedIds
      (performed :: between) ++ saved.id :: savedIds after := by
      rw [split, savedIds_append, savedIds_saved isSave, savedIds_append]
    rw [ids] at distinct
    have distinct' : (savedIds sooner).Nodup := (List.nodup_append.mp (List.nodup_append.mp distinct).1).1
    have known : saved.id ∈ savedIds sooner := by
      obtain ⟨time, call, marked⟩ := performed
      cases call with
      | markConsumed id =>
        obtain ⟨rfl, rfl⟩ : id = saved.id ∧ marked = true := by simpa [Performed.marks] using marks
        rcases markConsumed_cases earlier saved.id time with ⟨record, filed, named, -⟩ | ⟨-, refused⟩
        · rw [← named]
          exact ran'.id_saved distinct' filed
        · cases answer.trans (congrArg Prod.fst refused)
      | _ => cases marks
    exact (List.nodup_append.mp distinct).2.2 _ (List.mem_append_left _ known) _ (List.mem_cons_self ..) rfl
  · rw [Performed.marks_of_saved isSave] at marks
    cases marks
  · exact later

theorem aged_consumed (ran : Ran history store) (distinct : (savedIds history).Nodup)
    {before after : List Performed}
    {saved : TokenRecord} (saves : SavedIn history before saved after) :
    (aged saved after).consumedAt.isSome = true ↔
      saved.consumedAt.isSome = true ∨ ∃ performed ∈ history, performed.marks saved.id = true := by
  have same : (∃ performed ∈ history, performed.marks saved.id = true) ↔
      ∃ performed ∈ after, performed.marks saved.id = true := by
    constructor
    · rintro ⟨performed, member, marks⟩
      exact ⟨performed, ran.marked_after distinct saves member marks, marks⟩
    · rintro ⟨performed, member, marks⟩
      obtain ⟨first, split, -⟩ := saves
      exact ⟨performed, by simp [split, member], marks⟩
  rw [same]
  simp only [aged, Option.isSome_or, Bool.or_eq_true, List.findSome?_isSome_iff]
  refine or_congr Iff.rfl (exists_congr fun performed => and_congr Iff.rfl ?_)
  cases performed.marks saved.id <;> simp

theorem lastWritten_concat {performed : Performed} {userId key : String} {value : Option Str} :
    LastWritten (history ++ [performed]) userId key value ↔ performed.writes userId key = some value ∨
      performed.writes userId key = none ∧ LastWritten history userId key value := by
  constructor
  · rintro ⟨before, writer, after, split, writes, last⟩
    rcases List.eq_nil_or_concat after with rfl | ⟨between, final, rfl⟩
    · obtain ⟨rfl, same⟩ := List.append_inj' split rfl
      cases same
      exact .inl writes
    · rw [List.concat_eq_append, ← List.cons_append, ← List.append_assoc] at split
      obtain ⟨rfl, same⟩ := List.append_inj' split rfl
      cases same
      exact .inr ⟨last _ (by simp), before, writer, between, rfl, writes, fun later member =>
        last later (by simp [member])⟩
  · rintro (writes | ⟨quiet, before, writer, after, rfl, writes, last⟩)
    · exact ⟨history, performed, [], rfl, writes, by simp⟩
    · refine ⟨before, writer, after ++ [performed], by simp, writes, fun later member => ?_⟩
      rcases List.mem_append.mp member with old | new
      · exact last later old
      · rw [List.mem_singleton.mp new]
        exact quiet

theorem written_getUserData (time : Nat) (call : StoreCall) (store : InMemoryTokenStore) (userId key : String) :
    (answerStore time call store).2.getUserData userId key =
      ((⟨time, call, (answerStore time call store).1⟩ : Performed).writes userId key).getD
        (store.getUserData userId key) := by
  cases call with
  | saveUserData user name value =>
    by_cases same : user = userId ∧ name = key
    · obtain ⟨rfl, rfl⟩ := same
      simp [answerStore, Performed.writes]
    · simp only [answerStore, Performed.writes, if_neg same, Option.getD_none]
      refine getUserData_saveUserData_other _ _ ?_
      by_contra both
      simp only [not_or, not_not] at both
      exact same ⟨both.1.symm, both.2.symm⟩
  | deleteUserData user name =>
    by_cases same : user = userId ∧ name = key
    · obtain ⟨rfl, rfl⟩ := same
      simp [answerStore, Performed.writes]
    · simp only [answerStore, Performed.writes, if_neg same, Option.getD_none]
      refine getUserData_deleteUserData_other _ ?_
      by_contra both
      simp only [not_or, not_not] at both
      exact same ⟨both.1.symm, both.2.symm⟩
  | markConsumed id => exact getUserData_markConsumed ..
  | _ => rfl

theorem Ran.getUserData (ran : Ran history store) (userId key : String) (value : Str) :
    store.getUserData userId key = some value ↔ LastWritten history userId key (some value) := by
  induction ran with
  | start =>
    constructor
    · intro no
      cases no
    · rintro ⟨before, performed, after, no, -⟩
      cases before <;> cases no
  | @next history store time call _ ih =>
    rw [lastWritten_concat, written_getUserData]
    cases (⟨time, call, (answerStore time call store).1⟩ : Performed).writes userId key with
    | none => simpa using ih
    | some written => simp

/-- What is found for a token is the earliest surviving record that was saved with it. -/
theorem Ran.findByToken (ran : Ran history store) (distinct : (savedIds history).Nodup) (token : Str)
    (type : TokenType) : Contract history (.findByToken token type) (store.findByToken token type) := by
  rw [findByToken_eq, ran.records distinct]
  constructor
  · rw [List.find?_eq_none]
    constructor
    · rintro none before saved after saves rfl rfl kept
      exact none _ (mem_live.mpr ⟨before, saved, after, saves, kept, rfl⟩) (by simp [aged])
    · intro gone record member
      obtain ⟨before, saved, after, saves, kept, rfl⟩ := mem_live.mp member
      intro matched
      obtain ⟨hashed, typed⟩ : hashToken saved.token = hashToken token ∧ saved.type = type :=
        of_decide_eq_true matched
      exact gone before saved after saves (Str.sha256.inj hashed) typed kept
  · intro record found
    obtain ⟨before, saved, after, saves, asked, kept, rfl, least⟩ :=
      @find_live _ (fun saved => saved.token = token ∧ saved.type = type)
        (fun saved after => by simp [aged, hashToken]) _ _ found
    simp only [Bool.decide_and, Bool.and_eq_true, decide_eq_true_eq] at asked
    refine ⟨before, saved, after, saves, asked.1, asked.2, kept, ⟨rfl, aged_consumed ran distinct saves⟩, ?_⟩
    intro earlier other later savesOther named typed keptOther
    exact least earlier other later savesOther (by simp [named, typed]) keptOther

/-- A record is taken if it is on file and has not been taken. -/
theorem Ran.markConsumed (ran : Ran history store) (distinct : (savedIds history).Nodup) (time : Nat) (id : Str) :
    Contract history (.markConsumed id) (store.markConsumed id time).1 := by
  have unused {before after : List Performed} {saved : TokenRecord} (saves : SavedIn history before saved after) :
      (aged saved after).consumedAt = none ↔
        saved.consumedAt = none ∧ ∀ performed ∈ history, performed.marks saved.id = false := by
    rw [← Option.not_isSome_iff_eq_none, aged_consumed ran distinct saves]
    simp
  constructor
  · intro marked
    rcases markConsumed_cases store id time with ⟨record, member, rfl, fresh, -⟩ | ⟨-, refused⟩
    · rw [ran.records distinct] at member
      obtain ⟨before, saved, after, saves, kept, rfl⟩ := mem_live.mp member
      obtain ⟨notSaved, notMarked⟩ := (unused saves).mp fresh
      exact ⟨before, saved, after, saves, rfl, kept, notSaved, notMarked⟩
    · rw [refused] at marked
      cases marked
  · rintro ⟨before, saved, after, saves, rfl, kept, notSaved, notMarked⟩
    have member : aged saved after ∈ store.records := by
      rw [ran.records distinct]
      exact mem_live.mpr ⟨before, saved, after, saves, kept, rfl⟩
    exact (markConsumed_unused time member ((unused saves).mpr ⟨notSaved, notMarked⟩)).1

theorem Ran.contract (ran : Ran history store) (distinct : (savedIds history).Nodup)
    (time : Nat) (call : StoreCall) :
    Contract history call (answerStore time call store).1 := by
  cases call with
  | findByToken token type => exact ran.findByToken distinct token type
  | markConsumed id => exact ran.markConsumed distinct time id
  | getUserData userId key => exact ran.getUserData userId key
  | _ => trivial

/-- The in-memory store meets the contract after whatever has been done with it, if no id is saved twice. -/
theorem in_memory_store_meets_contract (ran : Ran history store) (distinct : (savedIds history).Nodup) :
    MeetsContract history store := by
  refine ⟨fun time call => ran.contract distinct time call, fun id => ?_⟩
  induction ran with
  | start => exact Nat.zero_le _
  | @next history store time call ran ih =>
    rw [savedIds_append] at distinct
    have distinct := distinct.sublist (List.sublist_append_left ..)
    have before := ih distinct
    rw [List.countP_append, List.countP_singleton]
    split
    swap
    · exact before
    rename_i marks
    have none : history.countP (·.marks id) = 0 := by
      have contract := ran.contract distinct time call
      cases call with
      | markConsumed other =>
        obtain ⟨rfl, marked⟩ : other = id ∧ (answerStore time (.markConsumed other) store).1 = true := by
          simpa [Performed.marks] using marks
        obtain ⟨_, _, _, _, _, _, _, unmarked⟩ := contract.mp marked
        exact List.countP_eq_zero.mpr fun performed member => by simp [unmarked performed member]
      | _ => cases marks
    omega

end

namespace Sample

/-- Ann's link is saved, looked up and taken. -/
def linkTaken : List StoreCall :=
  [.save ⟨.random ⟨0, 0⟩, "ann", .magicLink, .random ⟨0, 1⟩, .ofMs 2000, none, .ofMs 1000⟩,
    .findByToken (.random ⟨0, 1⟩) .magicLink, .markConsumed (.random ⟨0, 0⟩)]

/-- What a store answers to calls made all at once. -/
def performAll (time : Nat) : List StoreCall → InMemoryTokenStore → List Performed × InMemoryTokenStore
  | [], store => ([], store)
  | call :: rest, store =>
    let answered := answerStore time call store
    let later := performAll time rest answered.2
    (⟨time, call, answered.1⟩ :: later.1, later.2)

theorem ran_performAll (time : Nat) (calls : List StoreCall) {history : List Performed} {store : InMemoryTokenStore}
    (ran : Ran history store) : Ran (history ++ (performAll time calls store).1)
      (performAll time calls store).2 := by
  induction calls generalizing history store with
  | nil => simpa [performAll] using ran
  | cons call rest ih => simpa [performAll] using ih (ran.next time call)

theorem in_memory_store_meets_contract_linkTaken :
    MeetsContract (performAll 1000 linkTaken .empty).1 (performAll 1000 linkTaken .empty).2 :=
  in_memory_store_meets_contract (ran_performAll 1000 linkTaken .start) (by decide)

end Sample

end KeycloakAuth
