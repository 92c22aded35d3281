import KeycloakAuth.SetupFailures

namespace KeycloakAuth
open Async KeycloakAuthProvider

section
variable {κ : Type} (server : KeycloakServer κ)

/-- Calls of `setup2FA` over one store that works, as does the encoder. -/
def setupSystem : System ProviderCall.Ans Thrown String Setup2FAResponse (World κ) String Empty where
  body := setup2FA
  perform url _ _ call world := answerProvider server { Plan.good with toDataURL := .ok url } call world
  disturb change _ _ := change.elim

abbrev SetupConfig (κ : Type) := Config ProviderCall.Ans Thrown String Setup2FAResponse (World κ)

/-- The entry of the user is not looked at between another call's look, which found no secret, and its save. -/
def sparesSaves (userId : String) (cfg : SetupConfig κ) : Event String String Empty → Prop
  | .resume p _ => ∀ thread, cfg.threads[p]? = some thread →
      thread.state.view = .awaiting (.getUserData userId "totpSecret") →
      ∀ other ∈ cfg.threads, ∀ secret, other.state.view ≠ .awaiting (.saveUserData userId "totpSecret" secret)
  | _ => True

def alreadyConfigured : Thrown :=
  .domain .twoFactorAlreadyConfigured
    "2FA is already configured for this account — disable it before setting it up again"

/-- Codes for the secret pass `verify2FA`. -/
def Verified (platform : Platform) (world : World κ) (userId : String) (secret : Str) : Prop :=
  ∀ options plan now request code, platform.totpVerify secret code now = true →
    (answerAuth server platform options plan now request (.verify2FA userId code) world).1 = .ok true

/-- The call of the user that has number `p` has returned. -/
def Enrolled (cfg : SetupConfig κ) (userId : String) (p : Nat) (setup : Setup2FAResponse) : Prop :=
  ∃ thread, cfg.threads[p]? = some thread ∧ thread.request = userId ∧ thread.state.view = .returned setup

/-- One call succeeds at most, the others that have ended have been refused, and once all have ended there is
one that has succeeded, with the secret that is stored. -/
structure OneEnrolmentWins (platform : Platform) (userId : String) (cfg : SetupConfig κ) : Prop where
  one : ∀ p q setup setup', Enrolled cfg userId p setup → Enrolled cfg userId q setup' → p = q
  refused : ∀ thread ∈ cfg.threads, thread.request = userId → ∀ error, thread.state.view = .threw error →
    error = alreadyConfigured
  stored : (∀ thread ∈ cfg.threads, thread.request = userId → thread.state.finished = true) →
    (∃ thread ∈ cfg.threads, thread.request = userId) →
    ∃ p setup, Enrolled cfg userId p setup ∧ totpSecret cfg.shared userId = some setup.secret ∧
      Verified server platform cfg.shared userId setup.secret

end

/-- How far a call has come. -/
inductive SetupStage
  | reading
  | saving
  | encoding
  | refused
  | finished (url : String)
deriving DecidableEq, Repr

namespace SetupStage

/-- The end of the method, once the secret is stored. -/
def encode (secret : Str) : Method Setup2FAResponse :=
  (perform (.toDataURL secret)).bind fun url => .done ⟨secret, url⟩

/-- The method from the save on. -/
def store (userId : String) (secret : Str) : Method Setup2FAResponse :=
  (perform (.saveUserData userId "totpSecret" secret)).bind fun _ => encode secret

def state (p : Nat) (userId : String) : SetupStage → Suspended ProviderCall.Ans Thrown Setup2FAResponse
  | reading => ((setup2FA userId).settle 0 p 0).1
  | saving => ((store userId (.random ⟨p, 0⟩)).settle 0 p 1).1
  | encoding => ((encode (.random ⟨p, 0⟩)).settle 0 p 1).1
  | refused => .threw alreadyConfigured
  | finished url => .returned ⟨.random ⟨p, 0⟩, url⟩

def drawn : SetupStage → Nat
  | reading => 0
  | refused => 0
  | _ => 1

/-- The thread of a call that has come so far. -/
def thread (p : Nat) (userId : String) (stage : SetupStage) :
    Thread ProviderCall.Ans Thrown String Setup2FAResponse :=
  ⟨userId, stage.drawn, stage.state p userId⟩

/-- The stage that a call is in after its next step, where the user has a secret or not. -/
def after (configured : Bool) (url : String) : SetupStage → SetupStage
  | reading => if configured then refused else saving
  | saving => encoding
  | encoding => finished url
  | stage => stage

/-- The stage has a next step. -/
def waits : SetupStage → Bool
  | reading => true
  | saving => true
  | encoding => true
  | _ => false

/-- The world after the next step of a call. -/
def effect {κ : Type} (p : Nat) (userId : String) (stage : SetupStage) (world : World κ) : World κ :=
  if stage = saving then world.withSecret userId (.random ⟨p, 0⟩) else world

end SetupStage

section
variable {κ : Type} {server : KeycloakServer κ} {cfg next : SetupConfig κ}

/-- The calls and how far each has come, in the order in which they arrived. -/
def InStages (cfg : SetupConfig κ) (stages : List (String × SetupStage)) : Prop :=
  cfg.threads.length = stages.length ∧
    ∀ p userId (stage : SetupStage), stages[p]? = some (userId, stage) →
      cfg.threads[p]? = some (stage.thread p userId)

/-- Whether the call goes on depends on what it has read. -/
theorem read_settle (existing : Option Str) (now p : Nat) (userId url : String) :
    let next := SetupStage.reading.after (existing.any Str.truthy) url
    (if existing.any Str.truthy then .fail alreadyConfigured
      else .draw fun nonce => SetupStage.store userId (.random nonce) : Method Setup2FAResponse).settle now p 0 =
      (next.state p userId, next.drawn) := by
  cases existing.any Str.truthy <;> rfl

/-- A step of a call takes it to the next stage. -/
theorem resume_stage (server : KeycloakServer κ) {p : Nat} {userId : String}
    {stage : SetupStage} {call : ProviderCall}
    {rest : Except Thrown call.Ans → Method Setup2FAResponse} (url : String)
    (waiting : (stage.thread p userId).state = .awaiting call rest) :
    stage.waits = true ∧ ∃ log, (setupSystem server).resume cfg p (stage.thread p userId) call rest url =
      { cfg with
        shared := stage.effect p userId cfg.shared
        threads := cfg.threads.set p
          ((stage.after ((totpSecret cfg.shared userId).any Str.truthy) url).thread p userId)
        log := log } := by
  cases stage with
  | reading =>
    cases waiting
    have settled := read_settle (totpSecret cfg.shared userId) cfg.clock p userId url
    let log := cfg.log ++ [⟨p, .getUserData userId "totpSecret", .ok (totpSecret cfg.shared userId), cfg.clock⟩]
    have stepped := congrArg (fun settled : Suspended ProviderCall.Ans Thrown Setup2FAResponse × Nat =>
      ({ cfg with threads := cfg.threads.set p ⟨userId, settled.2, settled.1⟩, log := log } : SetupConfig κ))
        settled
    exact ⟨rfl, log, stepped⟩
  | saving =>
    cases waiting
    exact ⟨rfl, _, rfl⟩
  | encoding =>
    cases waiting
    exact ⟨rfl, _, rfl⟩
  | refused => cases waiting
  | finished url => cases waiting

end

/-- Call number `p` is one of the user and has come so far. -/
abbrev StageAt (stages : List (String × SetupStage)) (p : Nat) (userId : String) (stage : SetupStage) : Prop :=
  stages[p]? = some (userId, stage)

/-- Either no call of the user has stored a secret, and one at most is about to; or one has, and the others have not
looked at the entry before that. -/
inductive OneAhead (userId : String) (secret : Option Str) (stages : List (String × SetupStage)) : Prop
  | vacant (unset : secret.any Str.truthy = false)
      (early : ∀ p stage, StageAt stages p userId stage → stage = .reading ∨ stage = .saving)
      (one : ∀ p q, StageAt stages p userId .saving → StageAt stages q userId .saving → p = q)
  | won {winner} (stored : secret = some (.random ⟨winner, 0⟩))
      (ahead : StageAt stages winner userId .encoding ∨ ∃ url, StageAt stages winner userId (.finished url))
      (others : ∀ p stage, p ≠ winner → StageAt stages p userId stage → stage = .reading ∨ stage = .refused)

theorem of_getElem?_set {α : Type} {xs : List α} {p q : Nat} {value found : α}
    (at_q : (xs.set p value)[q]? = some found) :
    (q = p ∧ found = value) ∨ (q ≠ p ∧ xs[q]? = some found) := by
  by_cases own : q = p
  · subst own
    have bound := (List.getElem?_eq_some_iff.mp at_q).1
    rw [List.length_set] at bound
    exact .inl ⟨rfl, (Option.some.inj ((List.getElem?_set_self bound).symm.trans at_q)).symm⟩
  · exact .inr ⟨own, (List.getElem?_set_ne (Ne.symm own)).symm.trans at_q⟩

namespace OneAhead
variable {userId owner url : String} {secret : Option Str} {stages : List (String × SetupStage)} {p : Nat}
  {stage next : SetupStage}

/-- A call that arrives has only begun. -/
theorem arrive (ahead : OneAhead userId secret stages) (owner : String) :
    OneAhead userId secret (stages ++ [(owner, .reading)]) := by
  have back {q : Nat} {stage : SetupStage} (found : StageAt (stages ++ [(owner, .reading)]) q userId stage) :
      stage = .reading ∨ StageAt stages q userId stage := by
    rw [StageAt, List.getElem?_append] at found
    split at found
    · exact .inr found
    · have last := List.mem_singleton.mp (List.mem_of_getElem? found)
      exact .inl (Prod.mk.inj last).2
  have on {q : Nat} {stage : SetupStage} (found : StageAt stages q userId stage) :
      StageAt (stages ++ [(owner, .reading)]) q userId stage :=
    (List.getElem?_append_left (List.getElem?_eq_some_iff.mp found).1).trans found
  cases ahead with
  | vacant unset early one =>
    refine .vacant unset (fun q stage found => (back found).elim .inl (early q stage)) fun q r found found' => ?_
    exact one q r ((back found).resolve_left (by simp)) ((back found').resolve_left (by simp))
  | won stored ahead others =>
    exact .won stored (ahead.imp on (Exists.imp fun url => on)) fun q stage other found =>
      (back found).elim .inl (others q stage other)

/-- Calls of other users are of no account. -/
theorem other (ahead : OneAhead userId secret stages) (found : StageAt stages p owner stage)
    (apart : owner ≠ userId) :
    OneAhead userId secret (stages.set p (owner, next)) := by
  have back {q : Nat} {stage : SetupStage} (at_q : StageAt (stages.set p (owner, next)) q userId stage) :
      StageAt stages q userId stage := by
    rcases of_getElem?_set at_q with ⟨_, own⟩ | ⟨_, kept⟩
    · exact absurd (Prod.mk.inj own).1.symm apart
    · exact kept
  have on {q : Nat} {stage : SetupStage} (at_q : StageAt stages q userId stage) :
      StageAt (stages.set p (owner, next)) q userId stage := by
    refine (List.getElem?_set_ne ?_).trans at_q
    rintro rfl
    exact apart (Prod.mk.inj (Option.some.inj (found.symm.trans at_q))).1
  cases ahead with
  | vacant unset early one =>
    exact .vacant unset (fun q stage at_q => early q stage (back at_q))
      fun q r at_q at_r => one q r (back at_q) (back at_r)
  | won stored ahead others =>
    exact .won stored (ahead.imp on (Exists.imp fun url => on)) fun q stage other at_q =>
      others q stage other (back at_q)

/-- A step of a call of the user, which looks at the entry only if no other call is about to store a secret. -/
theorem resume (ahead : OneAhead userId secret stages) (found : StageAt stages p userId stage)
    (waits : stage.waits = true) (spared : stage = .reading → ∀ q, ¬ StageAt stages q userId .saving) :
    OneAhead userId (if stage = .saving then some (.random ⟨p, 0⟩) else secret)
      (stages.set p (userId, stage.after (secret.any Str.truthy) url)) := by
  have bound := (List.getElem?_eq_some_iff.mp found).1
  have own (next : SetupStage) : StageAt (stages.set p (userId, next)) p userId next := List.getElem?_set_self bound
  have back {next : SetupStage} {q : Nat} {stage : SetupStage}
      (at_q : StageAt (stages.set p (userId, next)) q userId stage) :
      (q = p ∧ stage = next) ∨ (q ≠ p ∧ StageAt stages q userId stage) :=
    (of_getElem?_set at_q).imp_left fun ⟨here, same⟩ => ⟨here, (Prod.mk.inj same).2⟩
  cases ahead with
  | vacant unset early one =>
    rcases early p stage found with rfl | rfl
    · rw [if_neg (by simp), unset]
      have alone {q : Nat} (at_q : StageAt (stages.set p (userId, .saving)) q userId .saving) : q = p :=
        (back at_q).elim And.left fun ⟨_, kept⟩ => absurd kept (spared rfl q)
      refine .vacant unset (fun q stage at_q => ?_) fun q r at_q at_r => (alone at_q).trans (alone at_r).symm
      rcases back at_q with ⟨_, rfl⟩ | ⟨_, kept⟩
      · exact .inr rfl
      · exact early q stage kept
    · rw [if_pos rfl]
      refine .won rfl (.inl (own _)) fun q stage other at_q => ?_
      obtain ⟨_, kept⟩ := (back at_q).resolve_left fun ⟨here, _⟩ => other here
      refine (early q stage kept).imp_right fun saving => ?_
      exact absurd (one q p (saving ▸ kept) found) other
  | @won winner stored ahead others =>
    by_cases here : p = winner
    · subst here
      rcases ahead with encoding | ⟨url, finished⟩
      · obtain rfl := (Prod.mk.inj (Option.some.inj (found.symm.trans encoding))).2
        rw [if_neg (by simp)]
        refine .won stored (.inr ⟨url, own _⟩) fun q stage other at_q => ?_
        exact others q stage other ((back at_q).resolve_left fun ⟨here, _⟩ => other here).2
      · obtain rfl := (Prod.mk.inj (Option.some.inj (found.symm.trans finished))).2
        cases waits
    · rcases others p stage here found with rfl | rfl
      · have on {stage next : SetupStage} (at_winner : StageAt stages winner userId stage) :
            StageAt (stages.set p (userId, next)) winner userId stage := (List.getElem?_set_ne here).trans at_winner
        rw [if_neg (by simp)]
        refine .won stored (ahead.imp on (Exists.imp fun url => on)) fun q stage other at_q => ?_
        rcases back at_q with ⟨_, rfl⟩ | ⟨_, kept⟩
        · exact .inr (by rw [stored]; rfl)
        · exact others q stage other kept
      · cases waits

end OneAhead

section
variable {κ : Type} {server : KeycloakServer κ} {cfg : SetupConfig κ} {userId owner : String} {p : Nat}
  {stages : List (String × SetupStage)}

theorem effect_own (userId : String) (stage : SetupStage)
    (world : World κ) : totpSecret (stage.effect p userId world) userId =
    if stage = .saving then some (.random ⟨p, 0⟩) else totpSecret world userId := by
  unfold SetupStage.effect
  split
  · exact InMemoryTokenStore.getUserData_saveUserData_self ..
  · rfl

theorem effect_other (stage : SetupStage) (world : World κ) (apart : owner ≠ userId) :
    totpSecret (stage.effect p owner world) userId = totpSecret world userId := by
  unfold SetupStage.effect
  split
  · exact InMemoryTokenStore.getUserData_saveUserData_other _ _ (.inl (Ne.symm apart))
  · rfl

namespace InStages

theorem arrive (inStages : InStages cfg stages) (owner : String) :
    InStages ((setupSystem server).arrive cfg owner) (stages ++ [(owner, .reading)]) := by
  refine ⟨by simp [System.arrive, inStages.1], fun p userId stage found => ?_⟩
  rw [List.getElem?_append] at found
  split at found
  · have before := inStages.2 p userId stage found
    exact (List.getElem?_append_left (List.getElem?_eq_some_iff.mp before).1).trans before
  · have bound := (List.getElem?_eq_some_iff.mp found).1
    obtain ⟨rfl, rfl⟩ := Prod.mk.inj (List.mem_singleton.mp (List.mem_of_getElem? found))
    simp only [List.length_singleton] at bound
    obtain rfl : p = cfg.threads.length := by
      have same := inStages.1
      omega
    exact List.getElem?_concat_length ..

theorem set (inStages : InStages cfg stages) (p : Nat) (owner : String) (next : SetupStage) (shared : World κ)
    (log : List (Entry ProviderCall.Ans Thrown)) :
    InStages { cfg with shared := shared, threads := cfg.threads.set p (next.thread p owner), log := log }
      (stages.set p (owner, next)) := by
  refine ⟨by simp [inStages.1], fun q userId stage found => ?_⟩
  rcases of_getElem?_set found with ⟨rfl, own⟩ | ⟨other, kept⟩
  · obtain ⟨rfl, rfl⟩ := Prod.mk.inj own
    have bound := (List.getElem?_eq_some_iff.mp found).1
    rw [List.length_set, ← inStages.1] at bound
    exact List.getElem?_set_self bound
  · exact (List.getElem?_set_ne (Ne.symm other)).trans (inStages.2 q userId stage kept)

/-- Every call is in some stage. -/
theorem stage_of (inStages : InStages cfg stages) {thread : Thread ProviderCall.Ans Thrown String Setup2FAResponse}
    (found : cfg.threads[p]? = some thread) :
    ∃ stage : SetupStage, StageAt stages p thread.request stage ∧ thread = stage.thread p thread.request := by
  have bound := (List.getElem?_eq_some_iff.mp found).1
  rw [inStages.1] at bound
  have at_p : StageAt stages p stages[p].1 stages[p].2 := List.getElem?_eq_getElem bound
  have same := Option.some.inj (found.symm.trans (inStages.2 p _ _ at_p))
  rw [same]
  exact ⟨stages[p].2, at_p, rfl⟩

end InStages

theorem reach_oneAhead {clock : Nat} {world : World κ} (unset : (totpSecret world userId).any Str.truthy = false)
    (reach : (setupSystem server).Reach (sparesSaves userId) (.start clock world) cfg) :
    ∃ stages, InStages cfg stages ∧ OneAhead userId (totpSecret cfg.shared userId) stages := by
  induction reach with
  | start =>
    exact ⟨[], ⟨rfl, fun _ _ _ no => by cases no⟩,
      .vacant unset (fun _ _ no => by cases no) fun _ _ no => by cases no⟩
  | @next before after event previous allowed step ih =>
    obtain ⟨stages, inStages, ahead⟩ := ih
    rcases System.advance_cases step with ⟨delay, rfl, rfl⟩ | ⟨change, rfl, rfl⟩ | ⟨owner, rfl, rfl⟩ |
      ⟨p, url, thread, call, rest, rfl, found, waiting, rfl⟩
    · exact ⟨stages, inStages, ahead⟩
    · exact change.elim
    · exact ⟨_, inStages.arrive owner, ahead.arrive owner⟩
    · obtain ⟨stage, at_p, same⟩ := inStages.stage_of found
      generalize thread.request = owner at at_p same
      subst same
      obtain ⟨waits, log, stepped⟩ := resume_stage server url waiting
      rw [stepped]
      refine ⟨_, inStages.set p owner _ _ log, ?_⟩
      by_cases own : owner = userId
      · subst own
        refine effect_own owner stage before.shared ▸ ahead.resume at_p waits ?_
        rintro rfl q saving
        have about := inStages.2 q owner .saving saving
        exact allowed _ found rfl _ (List.mem_of_getElem? about) (.random ⟨q, 0⟩) rfl
      · exact effect_other stage before.shared own ▸ ahead.other at_p own

theorem verified_of_stored {platform : Platform} {world : World κ} {secret : Str}
    (stored : totpSecret world userId = some secret) (usable : secret.truthy = true) :
    Verified server platform world userId secret := by
  intro options plan now request code fits
  have read : world.store.getUserData userId "totpSecret" = some secret := stored
  rw [answerAuth_verify2FA, read, Option.filter_some_pos usable, Option.any_some, fits]

/-- What a call returns that has returned. -/
theorem InStages.enrolled (inStages : InStages cfg stages) {setup : Setup2FAResponse}
    (enrolled : Enrolled cfg userId p setup) : ∃ url, StageAt stages p userId (.finished url) := by
  obtain ⟨thread, found, rfl, returned⟩ := enrolled
  obtain ⟨stage, at_p, same⟩ := inStages.stage_of found
  rw [same] at returned
  cases stage with
  | finished url => exact ⟨url, at_p⟩
  | _ => cases returned

theorem one_enrolment_wins {platform : Platform} {clock : Nat} {world : World κ}
    (unset : (totpSecret world userId).any Str.truthy = false)
    (reach : (setupSystem server).Reach (sparesSaves userId) (.start clock world) cfg) :
    OneEnrolmentWins server platform userId cfg := by
  obtain ⟨stages, inStages, ahead⟩ := reach_oneAhead unset reach
  refine ⟨?one, ?refused, ?stored⟩
  case one =>
    intro p q setup setup' enrolled enrolled'
    obtain ⟨url, at_p⟩ := inStages.enrolled enrolled
    obtain ⟨url', at_q⟩ := inStages.enrolled enrolled'
    cases ahead with
    | vacant unset early one => exact (early p _ at_p).elim (fun no => by cases no) fun no => by cases no
    | @won winner stored ahead others =>
      have own {r : Nat} {url : String} (at_r : StageAt stages r userId (.finished url)) : r = winner := by
        by_contra other
        exact (others r _ other at_r).elim (fun no => by cases no) fun no => by cases no
      exact (own at_p).trans (own at_q).symm
  case refused =>
    intro thread member owned error threw
    obtain ⟨p, found⟩ := List.mem_iff_getElem?.mp member
    obtain ⟨stage, -, same⟩ := inStages.stage_of found
    rw [same] at threw
    cases stage with
    | refused =>
      cases threw
      rfl
    | _ => cases threw
  case stored =>
    intro ended present
    have waits {r : Nat} {stage : SetupStage} (at_r : StageAt stages r userId stage) :
        (stage.thread r userId).state.finished = true := by
      exact ended _ (List.mem_of_getElem? (inStages.2 r userId stage at_r)) rfl
    cases ahead with
    | vacant unset early one =>
      obtain ⟨thread, member, rfl⟩ := present
      obtain ⟨p, found⟩ := List.mem_iff_getElem?.mp member
      obtain ⟨stage, at_p, -⟩ := inStages.stage_of found
      rcases early p stage at_p with rfl | rfl <;> cases waits at_p
    | @won winner stored ahead others =>
      rcases ahead with encoding | ⟨url, finished⟩
      · cases waits encoding
      · exact ⟨winner, ⟨.random ⟨winner, 0⟩, url⟩, ⟨_, inStages.2 winner userId _ finished, rfl, rfl⟩, stored,
          verified_of_stored stored rfl⟩

end

namespace Sample

/-- Two calls for Ann have arrived. -/
def twoCalls : SetupConfig Realm :=
  (setupSystem Realm.server).arrive ((setupSystem Realm.server).arrive (.start 1000 (.fresh realm)) "ann") "ann"

theorem twoCalls_reach {permitted : SetupConfig Realm → Event String String Empty → Prop}
    (arrives : ∀ cfg, permitted cfg (.arrive "ann")) :
    (setupSystem Realm.server).Reach permitted (.start 1000 (.fresh realm)) twoCalls := by
  have step (cfg : SetupConfig Realm) : (setupSystem Realm.server).advance cfg (.arrive "ann") =
      some ((setupSystem Realm.server).arrive cfg "ann") := rfl
  exact .next (.next .start (arrives _) (step _)) (arrives _) (step _)

def steps (order : List Nat) : List (Event String String Empty) := order.map fun p =>
    .resume p "data:image/png;base64,"

/-- The configuration that the calls get to in this order. -/
def stepped (order : List Nat) : SetupConfig Realm := ((setupSystem Realm.server).run
    twoCalls (steps order)).getD twoCalls

/-- The second call looks at the entry once the first has stored its secret. -/
theorem stepped_reach : (setupSystem Realm.server).Reach (sparesSaves "ann") (.start 1000 (.fresh realm))
    (stepped [0, 0, 1, 0]) := by
  have calm (first second : SetupStage) (here : first ≠ .saving ∧ second ≠ .saving) {cfg : SetupConfig Realm}
      (threads : cfg.threads = [first.thread 0 "ann", second.thread 1 "ann"]) (p : Nat) :
      sparesSaves "ann" cfg (.resume p "data:image/png;base64,") := by
    intro _ _ _ other member secret view
    rw [threads] at member
    rcases List.mem_pair.mp member with rfl | rfl
    · cases first <;> first | exact here.1 rfl | cases view
    · cases second <;> first | exact here.2 rfl | cases view
  have step (order : List Nat) (p : Nat)
      (before : (setupSystem Realm.server).Reach (sparesSaves "ann") (.start 1000 (.fresh realm)) (stepped order))
      (spares : sparesSaves "ann" (stepped order) (.resume p "data:image/png;base64,"))
      (ran : (setupSystem Realm.server).advance (stepped order) (.resume p "data:image/png;base64,") =
        some (stepped (order ++ [p]))) :
      (setupSystem Realm.server).Reach (sparesSaves "ann") (.start 1000 (.fresh realm)) (stepped (order ++ [p])) :=
    .next before spares ran
  have read := step [] 0 (twoCalls_reach fun _ => trivial) (calm .reading .reading (by decide) rfl 0) rfl
  have saved := step [0] 0 read (fun _ found looks => by cases found; cases looks) rfl
  have refused := step [0, 0] 1 saved (calm .encoding .reading (by decide) rfl 1) rfl
  exact step [0, 0, 1] 0 refused (fun _ found looks => by cases found; cases looks) rfl

theorem one_enrolment_wins_stepped : OneEnrolmentWins Realm.server platform "ann" (stepped [0, 0, 1, 0]) :=
  one_enrolment_wins rfl stepped_reach

/-- Both calls look at the entry before either stores a secret, and both succeed. -/
theorem one_enrolment_not_always : ¬ ∀ (κ : Type) (server : KeycloakServer κ) platform userId clock world cfg,
    (totpSecret world userId).any Str.truthy = false →
    (setupSystem server).Reach anyEvent (.start clock world) cfg → OneEnrolmentWins server platform userId cfg := by
  intro always
  have reach : (setupSystem Realm.server).Reach anyEvent (.start 1000 (.fresh realm))
    (stepped [0, 1, 0, 1, 0, 1]) :=
    (twoCalls_reach fun _ => trivial).of_run (fun _ _ _ => trivial)
      (show (setupSystem Realm.server).run twoCalls (steps [0, 1, 0, 1, 0, 1]) = some _ from rfl)
  have wins := always Realm Realm.server platform "ann" 1000 (.fresh realm) _ rfl reach
  cases wins.one 0 1 _ _ ⟨_, rfl, rfl, rfl⟩ ⟨_, rfl, rfl, rfl⟩

end Sample

end KeycloakAuth
