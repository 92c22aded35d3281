import KeycloakAuth.Cli.Commands
import KeycloakAuth.Cli.Upsert

namespace KeycloakAuth.Cli
open Async

/-- A request can fail transiently. -/
def Troubled (allowed : Failure → Prop) : Prop := ∃ failure, allowed failure ∧ failure ≠ none

/-- The realm is there, and the credentials of the client are registered in it. -/
def KeycloakAdminClient.Registered (self : KeycloakAdminClient) (realms : KcRealms) (realm : KcRealm) : Prop :=
  realms.get self.realm = some realm ∧ realm.accepts self.clientId self.clientSecret = true

/-- The client that an import works with. -/
def ImportOptions.client (options : ImportOptions) (config : RealmConfig) : KeycloakAdminClient :=
  ⟨config.realm, options.clientId, options.clientSecret⟩

/-- The call asks for a new realm. -/
def CliCall.creates : CliCall → Bool
  | .admin _ (.createRealm _) => true
  | _ => false

namespace CliCall

@[simp] theorem creates_readFile (path : String) : (CliCall.readFile path).creates = false := rfl

@[simp] theorem creates_readAdminTokenCache : CliCall.readAdminTokenCache.creates = false := rfl

@[simp] theorem creates_writeAdminTokenCache (entry : Option AdminTokenCache) :
    (CliCall.writeAdminTokenCache entry).creates = false := rfl

@[simp] theorem creates_token (realm clientId clientSecret : String) :
    (CliCall.token realm clientId clientSecret).creates = false := rfl

@[simp] theorem creates_getRealm (token realm : String) :
    (CliCall.admin token (.getRealm realm)).creates = false := rfl

@[simp] theorem creates_createRealm (token : String) (payload : RealmRepresentation) :
    (CliCall.admin token (.createRealm payload)).creates = true := rfl

end CliCall

/-- A step of a command ends well unless something fails transiently, and writes no file. -/
inductive Ends {α : Type} (allowed : Failure → Prop) (files : OrderedMap String RealmConfig)
    (good : α → KcRealms → Prop) (bad : KcRealms → Prop) : Except Thrown α → World → Prop
  | done {value realms cache} (fine : good value realms) :
      Ends allowed files good bad (.ok value) ⟨realms, cache, files⟩
  | failed {error realms cache} (troubled : Troubled allowed) (left : bad realms) :
      Ends allowed files good bad (.error error) ⟨realms, cache, files⟩

/-- Wherever the step is run on these realms, it ends so. -/
def Succeeds {α : Type} (setup : KcSetup) (allowed : Failure → Prop) (step : Command α) (realms : KcRealms)
    (good : α → KcRealms → Prop) (bad : KcRealms → Prop) : Prop :=
  ∀ p now drawn cache files log, step.Ensures (answerCli setup) allowed p
    (fun result _ world _ => Ends allowed files good bad result world) now drawn ⟨realms, cache, files⟩ log

section
variable {α β : Type} {setup : KcSetup} {allowed : Failure → Prop} {step : Command α} {realms : KcRealms}
  {good better : α → KcRealms → Prop} {bad worse : KcRealms → Prop} {best : β → KcRealms → Prop}

namespace Succeeds

theorem done {value : α} (fine : good value realms) : Succeeds setup allowed (.done value) realms good bad :=
  fun _ _ _ _ _ _ => .done fine

theorem bind {next : α → Command β} (first : Succeeds setup allowed step realms good bad)
    (goes_on : ∀ value changed, good value changed → Succeeds setup allowed (next value) changed best worse)
    (left : ∀ changed, bad changed → worse changed) : Succeeds setup allowed
      (step.bind next) realms best worse := by
  intro p now drawn cache files log
  refine Program.Ensures.bind (first p now drawn cache files log) ?_ ?_
  · intro value clock drawn world log ended
    cases ended with
    | done fine => exact goes_on _ _ fine ..
  · intro error clock world log ended
    cases ended with
    | failed troubled kept => exact .failed troubled (left _ kept)

theorem mono (first : Succeeds setup allowed step realms good bad)
    (fine : ∀ value changed, good value changed → better value changed)
    (left : ∀ changed, bad changed → worse changed) : Succeeds setup allowed step realms better worse := by
  intro p now drawn cache files log
  refine Program.Ensures.mono (fun result _ world _ ended => ?_) (first p now drawn cache files log)
  cases ended with
  | done good => exact .done (fine _ _ good)
  | failed troubled bad => exact .failed troubled (left _ bad)

end Succeeds

variable {client : KeycloakAdminClient} {realm : KcRealm}

/-- What the client reads from its realm. -/
theorem KeycloakAdminClient.Registered.reads {γ : Type} (registered : client.Registered realms realm)
    (read : KcRealm → Except HttpErrorResponse γ) :
    readRealm realms client.realm read = (read realm).map fun answer => (answer, realms) := by
  simp only [readRealm, registered.1]

/-- What the client changes in its realm. -/
theorem KeycloakAdminClient.Registered.changes {changed : KcRealm} (registered : client.Registered realms realm)
    {change : KcRealm → Except HttpErrorResponse KcRealm} (agreed : change realm = .ok changed) :
    changeRealm realms client.realm change = .ok ((), realms.set client.realm changed) := by
  simp only [changeRealm, registered.1, agreed, Except.map]

theorem answer_token (registered : client.Registered realms realm) (failure : Failure) (now p : Nat)
    (cache : Option AdminTokenCache) (files : OrderedMap String RealmConfig) :
    answerCli setup failure now p (.token client.realm client.clientId client.clientSecret) ⟨realms, cache, files⟩ =
      match failure with
      | some response => (.error (.axios response), ⟨realms, cache, files⟩)
      | none => (.ok ⟨"access token", setup.accessTokenLifespan⟩, ⟨realms, cache, files⟩) := by
  simp only [answerCli, token, registered.1, registered.2, if_true, Except.map]
  cases failure <;> rfl

@[simp] theorem answer_readAdminTokenCache (failure : Failure) (now p : Nat) (world : World) :
    answerCli setup failure now p .readAdminTokenCache world = (.ok world.adminTokenCache, world) := rfl

@[simp] theorem answer_writeAdminTokenCache (failure : Failure) (now p : Nat) (entry : Option AdminTokenCache)
    (world : World) : answerCli setup failure now p (.writeAdminTokenCache entry) world =
      (.ok (), { world with adminTokenCache := entry }) := rfl

theorem fetchAdminToken_succeeds (registered : client.Registered realms realm) :
    Succeeds setup allowed client.fetchAdminToken realms (fun _ changed => changed = realms) (· = realms) := by
  intro p now drawn cache files log
  simp only [KeycloakAdminClient.fetchAdminToken, perform, Program.bind_eq]
  refine .perform (fun failure later response fine _ answered => ?_) fun failure later error fine _ rejected => ?_
  · rw [answer_token registered] at answered ⊢
    cases failure with
    | some response => cases answered
    | none => exact .now (.perform (fun _ _ _ _ _ _ => .done rfl) fun _ _ _ _ _ no => by cases no)
  · rw [answer_token registered] at rejected ⊢
    cases failure with
    | some response => exact .failed ⟨_, fine, by simp⟩ rfl
    | none => cases rejected

theorem getAdminToken_succeeds (registered : client.Registered realms realm) :
    Succeeds setup allowed client.getAdminToken realms (fun _ changed => changed = realms) (· = realms) := by
  intro p now drawn cache files log
  simp only [KeycloakAdminClient.getAdminToken, perform, Program.bind_eq]
  refine .perform (fun _ later found _ _ _ => ?_) fun _ _ _ _ _ no => by cases no
  cases found with
  | none => exact fetchAdminToken_succeeds registered _ _ _ _ _ _
  | some entry =>
    refine .now ?_
    by_cases good : entry.expiresAt > later
    · simp only [good, if_true]
      exact .done rfl
    · simp only [good, if_false]
      exact fetchAdminToken_succeeds registered _ _ _ _ _ _

/-- A request with registered credentials that the server agrees to. -/
theorem authorized_succeeds {request : AdminRequest} {answer : request.Ans} {changed : KcRealms}
    (registered : client.Registered realms realm) (agreed : serve setup realms request = .ok (answer, changed)) :
    Succeeds setup allowed (client.authorized request) realms (fun value after => value = answer ∧ after = changed)
      (· = realms) := by
  rw [KeycloakAdminClient.authorized_eq]
  refine (getAdminToken_succeeds registered).bind ?_ fun _ same => same
  rintro token _ rfl p now drawn cache files log
  refine Program.Ensures.call (CliCall.admin token request) fun failure later fine _ => ?_
  simp only [answerCli, answerHttp, agreed]
  cases failure with
  | some response => exact .failed ⟨_, fine, by simp⟩ rfl
  | none => exact .done ⟨rfl, rfl⟩

/-- A request that the server refuses, when something has failed already. -/
theorem authorized_refused {request : AdminRequest} {response : HttpErrorResponse} (troubled : Troubled allowed)
    (registered : client.Registered realms realm) (refused : serve setup realms request = .error response) :
    Succeeds setup allowed (client.authorized request) realms (fun _ _ => False) (· = realms) := by
  rw [KeycloakAdminClient.authorized_eq]
  refine (getAdminToken_succeeds registered).bind ?_ fun _ same => same
  rintro token _ rfl p now drawn cache files log
  refine Program.Ensures.call (CliCall.admin token request) fun failure later fine _ => ?_
  simp only [answerCli, answerHttp, refused]
  cases failure <;> exact .failed troubled rfl

/-- The probe finds the realm, unless something fails transiently. -/
theorem realmExists_succeeds (registered : client.Registered realms realm) :
    Succeeds setup allowed client.realmExists realms
      (fun found changed => changed = realms ∧ (found = true ∨ Troubled allowed)) (· = realms) := by
  have served : serve setup realms (.getRealm client.realm) = .ok (⟨client.realm, realm.settings⟩, realms) :=
    registered.reads _
  have looks : Succeeds setup allowed (client.getRealm.bind fun _ => .done true) realms
      (fun found changed => changed = realms ∧ found = true) (· = realms) :=
    (authorized_succeeds registered served).bind (fun _ _ same => .done ⟨same.2, rfl⟩) fun _ same => same
  intro p now drawn cache files log
  refine Program.Ensures.attempt (looks p now drawn cache files log) ?_ ?_
  · intro found clock world log ended
    cases ended with
    | done fine => exact .done ⟨fine.1, .inl fine.2⟩
  · intro error clock drawn world log ended
    cases ended with
    | failed troubled kept => exact .done ⟨kept, .inr troubled⟩

/-- One round of the loop. -/
theorem importClient_succeeds (registered : client.Registered realms realm) (incoming : ClientConfig) :
    Succeeds setup allowed (importClient client incoming) realms
      (fun _ after => ∃ changed, KcRealm.Upserted setup realm incoming changed ∧
        after = realms.set client.realm changed) (fun _ => True) := by
  obtain ⟨changed, upsert, upserted⟩ := KcRealm.upsert_spec setup realm incoming
  simp only [importClient, KeycloakAdminClient.getClientByClientId, Program.bind_eq, Program.bind_assoc,
    Program.pure_eq, Program.done_bind]
  have listed : serve setup realms (.getClientsBy client.realm incoming.clientId) =
      .ok (realm.clients.filter fun found => found.clientId = incoming.clientId, realms) := registered.reads _
  refine (authorized_succeeds registered listed).bind ?_ fun _ _ => trivial
  rintro _ after ⟨rfl, same⟩
  rw [same]
  have written {request : AdminRequest} {answer : request.Ans}
      (agreed : serve setup realms request = .ok (answer, realms.set client.realm changed)) :
      Succeeds setup allowed (client.authorized request) realms (fun _ after => ∃ changed,
        KcRealm.Upserted setup realm incoming changed ∧ after = realms.set client.realm changed) (fun _ => True) :=
    (authorized_succeeds registered agreed).mono (fun _ _ same => ⟨changed, upserted, same.2⟩) fun _ _ => trivial
  rw [List.head?_filter]
  unfold KcRealm.upsert at upsert
  cases known : realm.client? incoming.clientId with
  | some found =>
    rw [known] at upsert
    rw [show realm.clients.find? _ = some found from known]
    exact @written (.updateClient client.realm found.id { incoming with secret := none })
      () (registered.changes upsert)
  | none =>
    rw [known] at upsert
    rw [show realm.clients.find? _ = none from known]
    exact @written (.createClient client.realm { incoming with secret := none }) () (registered.changes upsert)

theorem KeycloakAdminClient.Registered.set {changed : KcRealm}
    (accepts : changed.accepts client.clientId client.clientSecret = true) :
    client.Registered (realms.set client.realm changed) changed := ⟨OrderedMap.get_set_self .., accepts⟩

/-- By induction on the entries. -/
theorem importClients_succeeds (registered : client.Registered realms realm) (entries : List ClientConfig) :
    Succeeds setup allowed (importClients client entries) realms
      (fun _ after => ∃ changed, KcRealm.Imported setup realm entries changed ∧
        after = realms.set client.realm changed) (fun _ => True) := by
  induction entries generalizing realms realm with
  | nil => exact .done ⟨realm, .done, (OrderedMap.set_same registered.1).symm⟩
  | cons incoming rest ih =>
    refine (importClient_succeeds registered incoming).bind ?_ fun _ _ => trivial
    rintro _ _ ⟨middle, upserted, rfl⟩
    refine (ih (.set (upserted.accepts registered.2))).mono ?_ fun _ _ => trivial
    rintro _ _ ⟨changed, later, rfl⟩
    exact ⟨changed, .next upserted later, OrderedMap.set_set ..⟩

/-- `importCommand` past the reading of the file. -/
def importConfig (client : KeycloakAdminClient) (config : RealmConfig) : Command Unit := do
  let found ← client.realmExists
  let realmPayload : RealmRepresentation := ⟨config.realm, config.settings⟩
  if !found then client.createRealm realmPayload
  else client.updateRealm realmPayload
  importClients client (config.clients.getD [])

theorem importCommand_eq (options : ImportOptions) : importCommand options =
    (Program.perform (CliCall.readFile options.filePath)).bind fun config =>
      (importConfig ⟨config.realm, options.clientId, options.clientSecret⟩ config).tryFinally
        KeycloakAdminClient.close := rfl

theorem importConfig_succeeds {config : RealmConfig} (named : client.realm = config.realm)
    (registered : client.Registered realms realm) : Succeeds setup allowed (importConfig client config) realms
      (fun _ after => ∃ changed,
        KcRealm.Imported setup (realm.configured config.settings) (config.clients.getD []) changed ∧
        after = realms.set client.realm changed) (fun _ => True) := by
  simp only [importConfig, Program.bind_eq]
  refine (realmExists_succeeds registered).bind ?_ fun _ _ => trivial
  rintro found after ⟨same, fine⟩
  rw [same]
  cases found with
  | false =>
    have troubled : Troubled allowed := fine.resolve_left Bool.false_ne_true
    have refused : serve setup realms (.createRealm ⟨config.realm, config.settings⟩) =
        .error ⟨409, some ⟨none, none, some "Conflict detected. See logs for details"⟩⟩ := by
      have known : (realms.get config.realm).isSome = true := by rw [← named, registered.1]; rfl
      simp only [serve, known, if_true]
    exact (authorized_refused troubled registered refused).bind (fun _ _ no => no.elim) fun _ _ => trivial
  | true =>
    have agreed : serve setup realms (.updateRealm client.realm ⟨config.realm, config.settings⟩) =
        .ok ((), realms.set client.realm (realm.configured config.settings)) := registered.changes rfl
    refine (authorized_succeeds registered agreed).bind ?_ fun _ _ => trivial
    rintro _ middle ⟨-, rfl⟩
    have accepts : (realm.configured config.settings).accepts client.clientId client.clientSecret =
      true := registered.2
    refine (importClients_succeeds (.set accepts) _).mono ?_ fun _ _ => trivial
    rintro _ _ ⟨changed, imported, rfl⟩
    exact ⟨changed, imported, OrderedMap.set_set ..⟩

variable {options : ImportOptions} {config : RealmConfig} {p now drawn : Nat} {cache : Option AdminTokenCache}
  {files : OrderedMap String RealmConfig} {log : List (Entry CliCall.Ans Thrown)}

/-- The file is read, and in the end the token is forgotten. -/
theorem importCommand_ends (ends : Except Thrown Unit → KcRealms → List (Entry CliCall.Ans Thrown) → Prop)
    (file : files.get options.filePath = some config)
    (closed : ∀ result realms log later, ends result realms log →
      ends result realms (log ++ [⟨p, .writeAdminTokenCache none, .ok (), later⟩]))
    (body : ∀ now read, (importConfig (options.client config) config).Ensures (answerCli setup) allowed p
      (fun result _ world log => world.files = files ∧ ends result world.realms log)
        now drawn ⟨realms, cache, files⟩
      (log ++ [⟨p, .readFile options.filePath, .ok config, read⟩])) :
    (importCommand options).Ensures (answerCli setup) allowed p
      (fun result _ world log => world.files = files ∧ world.adminTokenCache = none ∧
        ends result world.realms log) now
      drawn ⟨realms, cache, files⟩ log := by
  rw [importCommand_eq]
  refine .perform (fun _ later found _ _ read => ?_) fun _ _ _ _ _ missing => ?_
  · simp only [answerCli, file, Except.ok.injEq] at read ⊢
    subst read
    refine Program.Ensures.tryFinally (body later later) ?_
    rintro result clock drawn world log ⟨kept, ended⟩
    refine .perform (fun _ later _ _ _ _ => ?_) fun _ _ _ _ _ no => by cases no
    cases result with
    | error error => exact ⟨kept, rfl, closed _ _ _ later ended⟩
    | ok value => exact ⟨kept, rfl, closed _ _ _ later ended⟩
  · simp only [answerCli, file] at missing
    cases missing

/-- The step fails, changes nothing and asks for no new realm. -/
def Refused (realms : KcRealms) (files : OrderedMap String RealmConfig) (result : Except Thrown α) (_ : Nat)
    (world : World) (log : List (Entry CliCall.Ans Thrown)) : Prop :=
  (∃ error, result = .error error) ∧ world = ⟨realms, none, files⟩ ∧ ∀ entry ∈ log, entry.call.creates = false

theorem quiet_concat {last : Entry CliCall.Ans Thrown} (quiet : ∀ entry ∈ log, entry.call.creates = false)
    (harmless : last.call.creates = false) : ∀ entry ∈ log ++ [last], entry.call.creates = false := by
  intro entry member
  rcases List.mem_append.mp member with old | new
  · exact quiet entry old
  · rw [List.mem_singleton.mp new]
    exact harmless

theorem answer_token_refused (unregistered : ∀ realm, ¬ client.Registered realms realm) (failure : Failure)
    (now p : Nat) (cache : Option AdminTokenCache) (files : OrderedMap String RealmConfig) : ∃ error,
      answerCli setup failure now p (.token client.realm client.clientId client.clientSecret)
        ⟨realms, cache, files⟩ =
        (.error error, ⟨realms, cache, files⟩) := by
  have refused : ∃ response, token setup realms client.realm client.clientId client.clientSecret =
      .error response := by
    unfold token
    cases known : realms.get client.realm with
    | none => exact ⟨_, rfl⟩
    | some realm =>
      have rejected : ¬ realm.accepts client.clientId client.clientSecret = true := fun accepted =>
        unregistered realm ⟨known, accepted⟩
      simp only [rejected]
      exact ⟨_, rfl⟩
  obtain ⟨response, refused⟩ := refused
  simp only [answerCli, refused, Except.map]
  cases failure with
  | none => exact ⟨_, rfl⟩
  | some response => exact ⟨_, rfl⟩

/-- Without registered credentials there is no token. -/
theorem getAdminToken_refused
    (unregistered : ∀ realm, ¬ client.Registered realms realm) (quiet : ∀ entry ∈ log, entry.call.creates = false) :
    client.getAdminToken.Ensures (answerCli setup) allowed p (Refused realms files) now drawn ⟨realms, none, files⟩
      log := by
  simp only [KeycloakAdminClient.getAdminToken, KeycloakAdminClient.fetchAdminToken, perform, Program.bind_eq]
  refine .perform (fun _ later found _ _ looked => ?_) fun _ _ _ _ _ no => by cases no
  cases looked
  simp only [answerCli]
  refine .perform (fun failure later _ _ _ answered => ?_) fun failure later error _ _ rejected => ?_
  · obtain ⟨error, failed⟩ := answer_token_refused unregistered failure later p none files
    rw [failed] at answered
    cases answered
  · obtain ⟨error, failed⟩ := answer_token_refused unregistered failure later p none files
    rw [failed]
    exact ⟨⟨_, rfl⟩, rfl, quiet_concat (quiet_concat quiet rfl) rfl⟩

theorem Refused.bind {step : Command α} {next : α → Command β} {world : World}
    (first : step.Ensures (answerCli setup) allowed p (Refused realms files) now drawn world log) :
    (step.bind next).Ensures (answerCli setup) allowed p (Refused realms files) now drawn world log := by
  refine Program.Ensures.bind first ?_ ?_
  · rintro value _ _ _ _ ⟨⟨error, no⟩, -⟩
    cases no
  · rintro error _ _ _ ⟨-, same, quiet⟩
    exact ⟨⟨error, rfl⟩, same, quiet⟩

/-- Without registered credentials an import gets nowhere. -/
theorem importConfig_refused (unregistered : ∀ realm, ¬ client.Registered realms realm)
    (quiet : ∀ entry ∈ log, entry.call.creates = false) :
    (importConfig client config).Ensures (answerCli setup) allowed p (Refused realms files) now drawn
      ⟨realms, none, files⟩ log := by
  simp only [importConfig, Program.bind_eq]
  refine Program.Ensures.bind (P := fun result _ world log => result = .ok false ∧ world = ⟨realms, none, files⟩ ∧
    ∀ entry ∈ log, entry.call.creates = false) ?_ ?_ ?_
  · refine Program.Ensures.attempt (Refused.bind (Refused.bind (getAdminToken_refused unregistered quiet))) ?_ ?_
    · rintro value _ _ _ ⟨⟨error, no⟩, -⟩
      cases no
    · rintro error _ _ _ _ ⟨-, same, quiet⟩
      exact ⟨rfl, same, quiet⟩
  · rintro found _ _ _ _ ⟨no, rfl, quiet⟩
    cases no
    exact Refused.bind (Refused.bind (getAdminToken_refused unregistered quiet))
  · rintro error _ _ _ ⟨no, -⟩
    cases no

/-- The rest of an import that takes the realm for absent. -/
def creating (client : KeycloakAdminClient) (config : RealmConfig) : Command Unit :=
  (client.createRealm ⟨config.realm, config.settings⟩).bind fun _ => importClients client (config.clients.getD [])

/-- The rest of an import that takes the realm for present. -/
def updating (client : KeycloakAdminClient) (config : RealmConfig) : Command Unit :=
  (client.updateRealm ⟨config.realm, config.settings⟩).bind fun _ => importClients client (config.clients.getD [])

theorem importConfig_eq : importConfig client config =
    client.realmExists.bind fun found => if !found then creating client config else updating client config := rfl

/-- The run asks for a new realm. -/
def Creates (setup : KcSetup) (body : Command Unit) (schedule : Schedule Failure)
    (now : Nat) (world : World) : Prop :=
  (body.tryFinally KeycloakAdminClient.close).Makes (answerCli setup) (·.creates = true) 0 schedule now 0 world

variable {schedule : Schedule Failure}

/-- A token request with registered credentials, and the request that is sent with the token. -/
theorem fetched_creates (registered : client.Registered realms realm) {now drawn : Nat} {next : Unit → Command Unit}
    {payload : RealmRepresentation} :
    (((client.fetchAdminToken.bind fun token => Program.perform (CliCall.admin token (.createRealm payload))).bind
      next).tryFinally KeycloakAdminClient.close).Makes (answerCli setup) (·.creates = true) p schedule now drawn
        ⟨realms, cache, files⟩ ↔ (schedule 0).2 = none := by
  simp only [KeycloakAdminClient.fetchAdminToken, perform, Program.bind_eq, Program.perform, Program.await_bind,
    Program.tryFinally, Program.Makes, answer_token registered]
  cases (schedule 0).2 with
  | some response =>
    simp [KeycloakAdminClient.close, perform, Program.perform, Program.tryFinally, Program.Makes, answerCli]
  | none => simp [Program.tryFinally, Program.Makes, answerCli]

theorem creating_creates (registered : client.Registered realms realm) :
    Creates setup (creating client config) schedule now ⟨realms, cache, files⟩ ↔
      (∃ entry, cache = some entry ∧ entry.expiresAt > now + (schedule 0).1) ∨ (schedule 1).2 = none := by
  unfold Creates creating
  simp only [KeycloakAdminClient.createRealm, KeycloakAdminClient.authorized_eq, KeycloakAdminClient.getAdminToken,
    perform, Program.bind_eq]
  rw [Program.perform_bind]
  simp only [Program.await_bind, Program.tryFinally, Program.Makes, answerCli,
    Program.ofExcept_ok, Program.done_bind,
    CliCall.creates_readAdminTokenCache, Bool.false_eq_true, false_or]
  cases cache with
  | none =>
    refine (fetched_creates registered).trans ?_
    simp
  | some entry =>
    simp only [Program.now_bind, Program.clock_bind, Program.tryFinally, Program.Makes]
    by_cases good : entry.expiresAt > ((now + (schedule 0).1 : Nat) : Int)
    · simp only [good, if_true]
      refine iff_of_true (.inl rfl) (.inl ⟨entry, rfl, ?_⟩)
      simpa using good
    · simp only [good, if_false]
      refine (fetched_creates registered).trans ?_
      simp only [Option.some.injEq, exists_eq_left']
      exact (or_iff_right (by simpa using good)).symm

theorem authorized_only {request : AdminRequest}
    (harmless : ∀ token, (CliCall.admin token request).creates = false) :
    (client.authorized request).Only fun call => call.creates = false := by
  rw [KeycloakAdminClient.authorized_eq]
  have fetches : client.fetchAdminToken.Only fun call => call.creates = false := by
    refine .bind (.perform rfl) fun response => .bind (fun now => trivial) fun now => ?_
    exact .bind (.perform rfl) fun _ => trivial
  refine .bind (.bind (.perform rfl) fun cache => ?_) fun token => .perform (harmless token)
  cases cache with
  | none => exact fetches
  | some entry =>
    refine .bind (fun now => trivial) fun now => ?_
    split
    · trivial
    · exact fetches

theorem importClients_only (entries : List ClientConfig) :
    (importClients client entries).Only fun call => call.creates = false := by
  induction entries with
  | nil => trivial
  | cons incoming rest ih =>
    refine .bind (.bind (.bind (authorized_only fun _ => rfl) fun _ => trivial) fun existing => ?_) fun _ => ih
    cases existing with
    | none => exact authorized_only fun _ => rfl
    | some found => exact authorized_only fun _ => rfl

theorem updating_only :
    ((updating client config).tryFinally KeycloakAdminClient.close).Only fun call => call.creates = false :=
  .tryFinally (.bind (authorized_only fun _ => rfl) fun _ => importClients_only _) (.perform rfl)

theorem answer_getRealm (registered : client.Registered realms realm) (failure : Failure) (now p : Nat)
    (secret : String) (cache : Option AdminTokenCache) (files : OrderedMap String RealmConfig) :
    answerCli setup failure now p (.admin secret (.getRealm client.realm)) ⟨realms, cache, files⟩ =
      match failure with
      | some response => (.error (.axios response), ⟨realms, cache, files⟩)
      | none => (.ok ⟨client.realm, realm.settings⟩, ⟨realms, cache, files⟩) := by
  simp only [answerCli, serve, registered.reads, Except.map]
  cases failure <;> rfl

/-- The probe of an import: the look for a cached token (0), the token request (1), the entry in the cache (2)
and the `GET` (3). -/
theorem importConfig_creates (registered : client.Registered realms realm) :
    Creates setup (importConfig client config) schedule now ⟨realms, none, files⟩ ↔
      (schedule 1).2 ≠ none ∧ (schedule 3).2 = none ∨
      (schedule 1).2 = none ∧ (schedule 3).2 ≠ none ∧
        (((schedule 2).1 + (schedule 3).1 + (schedule 4).1 : Nat) < ((setup.accessTokenLifespan : Int) - 30) * 1000 ∨
          (schedule 5).2 = none) := by
  have creates := @creating_creates setup realms client realm config
  unfold Creates at creates ⊢
  rw [importConfig_eq]
  simp only [KeycloakAdminClient.realmExists, KeycloakAdminClient.getRealm, KeycloakAdminClient.authorized_eq,
    KeycloakAdminClient.getAdminToken, KeycloakAdminClient.fetchAdminToken, perform, Program.bind_eq,
    Program.tryCatch_eq, Program.perform, Program.await_bind, Program.attempt, Program.tryFinally,
      Program.Makes, answer_readAdminTokenCache,
    Program.ofExcept_ok, Program.done_bind, answer_token registered, CliCall.creates_readAdminTokenCache,
    CliCall.creates_token, Bool.false_eq_true, false_or]
  cases first : (schedule 1).2 with
  | some response =>
    simp only [Program.ofExcept_error, Program.fail_bind, Program.attempt, Program.pure_eq, Program.done_bind,
      Bool.not_false, if_true]
    refine (creates registered).trans ?_
    simp
  | none =>
    simp only [Program.ofExcept_ok, Program.done_bind, Program.now_bind, Program.clock_bind, Program.await_bind,
      Program.pure_eq, Program.attempt, Program.tryFinally, Program.Makes, answer_writeAdminTokenCache,
      CliCall.creates_writeAdminTokenCache, CliCall.creates_getRealm, Bool.false_eq_true, false_or, Nat.zero_add,
      Nat.reduceAdd]
    rw [answer_getRealm registered]
    cases third : (schedule 3).2 with
    | some response =>
      simp only [Program.ofExcept_error, Program.fail_bind, Program.attempt,
        Program.done_bind, Bool.not_false, if_true]
      refine (creates registered).trans ?_
      simp only [Option.some.injEq, exists_eq_left', ne_eq, reduceCtorEq, not_true, not_false_eq_true, and_false,
        false_or, true_and]
      refine or_congr ?_ Iff.rfl
      push_cast
      omega
    | none =>
      simp only [Program.ofExcept_ok, Program.done_bind, Program.attempt,
        Bool.not_true, Bool.false_eq_true, if_false]
      refine iff_of_false (updating_only.not_makes fun call harmless asks => ?_) (by simp)
      rw [harmless] at asks
      cases asks

end

end KeycloakAuth.Cli
