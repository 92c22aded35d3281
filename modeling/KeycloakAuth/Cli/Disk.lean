import KeycloakAuth.Cli.RealmFile
import KeycloakAuth.Cli.Export
import KeycloakAuth.Async.Refinement
import KeycloakAuth.Counter

namespace KeycloakAuth.Cli
open Async Js

/-- The surroundings of a command, with the bytes of its files. -/
structure Disk where
  realms : KcRealms
  adminTokenCache : Option AdminTokenCache
  files : OrderedMap String (List Nat)

section
variable (conversions : Conversions) (unreadable : List Nat → Thrown) (setup : KcSetup)

/-- A file that is no realm file fails to be read in a way that depends on what is in it. -/
def answerDisk (failure : Failure) (now request : Nat) : (call : CliCall) → Disk → Except Thrown call.Ans × Disk
  | .readFile path, disk =>
    match disk.files.get path with
    | none => (.error (.error ("ENOENT: no such file or directory, open '" ++ path ++ "'")), disk)
    | some bytes =>
      match readBytes conversions bytes with
      | none => (.error (unreadable bytes), disk)
      | some config => (.ok config, disk)
  | .writeFile path config, disk =>
    (.ok (), { disk with files := disk.files.set path (fileBytes conversions config) })
  | call, disk =>
    let answered := answerCli setup failure now request call ⟨disk.realms, disk.adminTokenCache, .empty⟩
    (answered.1, { disk with realms := answered.2.realms, adminTokenCache := answered.2.adminTokenCache })

/-- A command that is run alone over a disk. -/
def runOnDisk {α : Type} (command : Command α) (schedule : Schedule Failure) (now : Nat) (disk : Disk) :
    Driven CliCall.Ans Thrown α Disk :=
  command.drive (answerDisk conversions unreadable setup) 0 schedule now 0 disk []

end

section
variable (conversions : Conversions)

/-- All settings keep their values on the way through a file. -/
structure RealmConfig.Plain (config : RealmConfig) : Prop where
  settings : config.settings.Plain conversions
  clients : ∀ client ∈ config.clients.getD [], client.settings.Plain conversions

structure KcRealm.Plain (realm : KcRealm) : Prop where
  settings : realm.settings.Plain conversions
  clients : ∀ client ∈ realm.clients, client.settings.Plain conversions

/-- The bytes on the disk are those of the realm files of a world. -/
structure Mirrors (world : World) (disk : Disk) : Prop where
  realms : disk.realms = world.realms
  adminTokenCache : disk.adminTokenCache = world.adminTokenCache
  missing : ∀ path, disk.files.get path = none → world.files.get path = none
  files : ∀ path bytes, disk.files.get path = some bytes → ∃ config, readBytes conversions bytes = some config ∧
    world.files.get path = some config ∧ config.Plain conversions
  plain : ∀ name realm, world.realms.get name = some realm → realm.Plain conversions

/-- A request that brings no settings that would change on their way through a file. -/
def AdminRequest.Fine : AdminRequest → Prop
  | .createRealm payload => payload.settings.Plain conversions
  | .updateRealm _ payload => payload.settings.Plain conversions
  | .createClient _ payload => payload.settings.Plain conversions
  | .updateClient _ _ payload => payload.settings.Plain conversions
  | _ => True

def AdminRequest.Good : (request : AdminRequest) → request.Ans → Prop
  | .getRealm _, data => Settings.Plain conversions (RealmRepresentation.settings data)
  | .getClients _, clients => ∀ client ∈ (clients : List KcClient), client.settings.Plain conversions
  | .getClientsBy _ _, clients => ∀ client ∈ (clients : List KcClient), client.settings.Plain conversions
  | _, _ => True

def CliCall.Fine : CliCall → Prop
  | .writeFile _ config => config.Writable conversions
  | .admin _ request => request.Fine conversions
  | _ => True

def CliCall.Good : (call : CliCall) → call.Ans → Prop
  | .readFile _, config => RealmConfig.Plain conversions config
  | .admin _ request, answer => request.Good conversions answer
  | _, _ => True

end

section
variable {conversions : Conversions}

theorem Settings.Plain.set {settings : Settings} (plain : settings.Plain conversions) {key : String} {value : Json}
    (own : value.Plain conversions) : Settings.Plain conversions (settings.set key value) := by
  intro other found there
  by_cases same : other = key
  · rw [same, OrderedMap.get_set_self] at there
    cases there
    exact own
  · rw [OrderedMap.get_set_other _ _ same] at there
    exact plain other found there

theorem Settings.Plain.merge {settings other : Settings} (plain : settings.Plain conversions)
    (plain' : other.Plain conversions) : Settings.Plain conversions (settings.merge other) := by
  intro key value there
  rw [OrderedMap.get_merge] at there
  cases own : other.get key with
  | none =>
    rw [own, Option.none_or] at there
    exact plain key value there
  | some found =>
    rw [own, Option.some_or] at there
    exact Option.some.inj there ▸ plain' key found own

theorem plain_empty : Settings.Plain conversions .empty := fun _ _ no => by cases no

theorem readRealm_ok {α : Type} {realms after : KcRealms} {name : String}
    {read : KcRealm → Except HttpErrorResponse α}
    {answer : α} (served : readRealm realms name read = .ok (answer, after)) :
    after = realms ∧ ∃ found, realms.get name = some found ∧ read found = .ok answer := by
  unfold readRealm at served
  cases known : realms.get name with
  | none => simp [known] at served
  | some found =>
    rw [known] at served
    cases result : read found with
    | error response => simp [result, Except.map] at served
    | ok value =>
      simp only [result, Except.map, Except.ok.injEq, Prod.mk.injEq] at served
      exact ⟨served.2.symm, found, rfl, served.1 ▸ result⟩

theorem changeRealm_ok {realms after : KcRealms} {name : String}
    {change : KcRealm → Except HttpErrorResponse KcRealm}
    {answer : Unit} (served : changeRealm realms name change = .ok (answer, after)) :
    ∃ found changed, realms.get name = some found ∧ change found = .ok changed ∧
      after = realms.set name changed := by
  unfold changeRealm at served
  cases known : realms.get name with
  | none => simp [known] at served
  | some found =>
    rw [known] at served
    cases result : change found with
    | error response => simp [result, Except.map] at served
    | ok changed =>
      simp only [result, Except.map, Except.ok.injEq, Prod.mk.injEq, true_and] at served
      exact ⟨found, changed, rfl, result, served.symm⟩

theorem KcRealm.Plain.configured {realm : KcRealm} (plain : realm.Plain conversions) {settings : Settings}
    (own : settings.Plain conversions) : (realm.configured settings).Plain conversions :=
  ⟨plain.settings.merge own, plain.clients⟩

theorem KcRealm.Plain.createClient {setup : KcSetup} {realm changed : KcRealm} (plain : realm.Plain conversions)
    {payload : ClientConfig} (own : payload.settings.Plain conversions)
    (created : realm.createClient setup payload = .ok changed) : changed.Plain conversions := by
  unfold KcRealm.createClient at created
  split at created
  · cases created
  · cases created
    refine ⟨plain.settings, List.forall_mem_append.mpr ⟨plain.clients, List.forall_mem_singleton.mpr own⟩⟩

theorem KcRealm.Plain.updateClient {realm changed : KcRealm} (plain : realm.Plain conversions) {id : String}
    {payload : ClientConfig} (own : payload.settings.Plain conversions)
    (updated : realm.updateClient id payload = .ok changed) : changed.Plain conversions := by
  unfold KcRealm.updateClient at updated
  split at updated
  · cases updated
    refine ⟨plain.settings, fun client member => ?_⟩
    obtain ⟨old, inRealm, rfl⟩ := List.mem_map.mp member
    split
    · exact (plain.clients old inRealm).merge own
    · exact plain.clients old inRealm
  · cases updated

section
variable {setup : KcSetup} {realms : KcRealms}

/-- Every request that is served leaves the realms plain, and answers with plain settings. -/
theorem serve_plain {request : AdminRequest} (new : setup.newRealm.Plain conversions)
    (plain : ∀ name realm, realms.get name = some realm → realm.Plain conversions)
    (fine : request.Fine conversions) {answer : request.Ans} {after : KcRealms}
    (served : serve setup realms request = .ok (answer, after)) :
    (∀ name realm, after.get name = some realm → realm.Plain conversions) ∧ request.Good conversions answer := by
  have set {name : String} {changed : KcRealm} (own : changed.Plain conversions) :
      ∀ other realm, (realms.set name changed).get other = some realm → realm.Plain conversions := by
    intro other realm there
    by_cases same : other = name
    · rw [same, OrderedMap.get_set_self] at there
      exact Option.some.inj there ▸ own
    · rw [OrderedMap.get_set_other _ _ same] at there
      exact plain other realm there
  cases request with
  | createRealm payload =>
    simp only [serve] at served
    split at served
    · cases served
    · cases served
      exact ⟨set (new.configured fine), trivial⟩
  | getRealm name =>
    obtain ⟨rfl, found, known, read⟩ := readRealm_ok served
    cases read
    exact ⟨plain, (plain _ _ known).settings⟩
  | updateRealm name payload =>
    obtain ⟨found, changed, known, result, rfl⟩ := changeRealm_ok served
    cases result
    exact ⟨set ((plain _ _ known).configured fine), trivial⟩
  | getClients name =>
    obtain ⟨rfl, found, known, read⟩ := readRealm_ok served
    cases read
    exact ⟨plain, (plain _ _ known).clients⟩
  | getClientsBy name clientId =>
    obtain ⟨rfl, found, known, read⟩ := readRealm_ok served
    cases read
    exact ⟨plain, fun client member => (plain _ _ known).clients client (List.mem_filter.mp member).1⟩
  | createClient name payload =>
    obtain ⟨found, changed, known, result, rfl⟩ := changeRealm_ok served
    exact ⟨set ((plain _ _ known).createClient fine result), trivial⟩
  | updateClient name id payload =>
    obtain ⟨found, changed, known, result, rfl⟩ := changeRealm_ok served
    exact ⟨set ((plain _ _ known).updateClient fine result), trivial⟩
  | getClientSecret name id =>
    obtain ⟨rfl, found, known, read⟩ := readRealm_ok served
    exact ⟨plain, trivial⟩

end

end

section
variable {conversions : Conversions} {unreadable : List Nat → Thrown} {setup : KcSetup}

/-- Requests do not touch the files. -/
theorem Mirrors.answerHttp {α : Type} {world : World} {disk : Disk} (mirrors : Mirrors conversions world disk)
    (failure : Failure) (served : Except HttpErrorResponse (α × KcRealms))
    (plain : ∀ answer after, served = .ok (answer, after) →
      ∀ name realm, after.get name = some realm → realm.Plain conversions) :
    let answered := Cli.answerHttp failure served ⟨disk.realms, disk.adminTokenCache, .empty⟩
    answered.1 = (Cli.answerHttp failure served world).1 ∧
      Mirrors conversions (Cli.answerHttp failure served world).2
      { disk with realms := answered.2.realms, adminTokenCache := answered.2.adminTokenCache } := by
  unfold Cli.answerHttp
  cases failure with
  | some response => exact ⟨rfl, mirrors⟩
  | none =>
    cases result : served with
    | error response => exact ⟨rfl, mirrors⟩
    | ok answered =>
      exact ⟨rfl, rfl, mirrors.adminTokenCache, mirrors.missing, mirrors.files, plain _ _ result⟩

theorem answerHttp_ok {α : Type} {failure : Failure} {served : Except HttpErrorResponse
    (α × KcRealms)} {world : World}
    {answer : α} (ok : (Cli.answerHttp failure served world).1 = .ok answer) : ∃ after,
      served = .ok (answer, after) := by
  unfold Cli.answerHttp at ok
  cases failure with
  | some response => cases ok
  | none =>
    cases served with
    | error response => cases ok
    | ok answered =>
      cases ok
      exact ⟨answered.2, rfl⟩

/-- One call over the disk and over the files that it stands for. -/
theorem disk_simulates (new : setup.newRealm.Plain conversions) :
    Simulates (CliCall.Fine conversions) (CliCall.Good conversions) (Mirrors conversions) (answerCli setup)
      (answerDisk conversions unreadable setup) := by
  rintro failure now request call world disk fine mirrors
  obtain ⟨sameRealms, sameCache, missing, files, plain⟩ := id mirrors
  cases call with
  | readFile path =>
    cases there : disk.files.get path with
    | none =>
      have none := missing path there
      refine ⟨by simp [answerDisk, answerCli, there, none], ?_, fun value no => by simp [answerCli, none] at no⟩
      simp only [answerDisk, answerCli, there, none]
      exact ⟨sameRealms, sameCache, missing, files, plain⟩
    | some bytes =>
      obtain ⟨config, read, file, own⟩ := files path bytes there
      refine ⟨by simp [answerDisk, answerCli, there, read, file], ?_, fun value ok => ?_⟩
      · simp only [answerDisk, answerCli, there, read, file]
        exact ⟨sameRealms, sameCache, missing, files, plain⟩
      · simp only [answerCli, file, Except.ok.injEq] at ok
        exact ok ▸ own
  | writeFile path config =>
    have writable : config.Writable conversions := fine
    refine ⟨rfl, ⟨sameRealms, sameCache, fun other none => ?_, fun other bytes there => ?_, plain⟩,
      fun _ _ => trivial⟩
    · by_cases same : other = path
      · subst same
        simp [answerDisk] at none
      · rw [answerDisk, OrderedMap.get_set_other _ _ same] at none
        rw [answerCli, OrderedMap.get_set_other _ _ same]
        exact missing other none
    · by_cases same : other = path
      · subst same
        simp only [answerDisk, OrderedMap.get_set_self, Option.some.injEq] at there
        subst there
        exact ⟨config, readBytes_fileBytes writable, OrderedMap.get_set_self .., writable.plain,
          fun client member => (writable.clients client member).plain⟩
      · rw [answerDisk, OrderedMap.get_set_other _ _ same] at there
        rw [answerCli, OrderedMap.get_set_other _ _ same]
        exact files other bytes there
  | readAdminTokenCache =>
    exact ⟨by simp [answerDisk, answerCli, sameCache], ⟨sameRealms, sameCache, missing, files, plain⟩,
      fun _ _ => trivial⟩
  | writeAdminTokenCache entry => exact ⟨rfl, ⟨sameRealms, rfl, missing, files, plain⟩, fun _ _ => trivial⟩
  | token realm clientId clientSecret =>
    have kept := mirrors.answerHttp failure
      ((token setup world.realms realm clientId clientSecret).map fun token =>
        (token, world.realms)) fun answer after ok => by
        cases found : token setup world.realms realm clientId clientSecret with
        | error response => simp [found, Except.map] at ok
        | ok response =>
          simp only [found, Except.map, Except.ok.injEq, Prod.mk.injEq] at ok
          exact ok.2 ▸ plain
    simp only [answerDisk, answerCli, sameRealms] at kept ⊢
    exact ⟨kept.1, kept.2, fun _ _ => trivial⟩
  | admin token request =>
    have kept := mirrors.answerHttp failure (serve setup world.realms request) fun answer after ok =>
      (serve_plain new plain fine ok).1
    simp only [answerDisk, answerCli, sameRealms] at kept ⊢
    refine ⟨kept.1, kept.2, fun value ok => ?_⟩
    obtain ⟨after, served⟩ := answerHttp_ok ok
    exact (serve_plain new plain fine served).2

/-- What a command does over fine calls. -/
abbrev Handles {α : Type} (conversions : Conversions) (command : Command α) (Q : α → Prop) : Prop :=
  Program.Handles (CliCall.Fine conversions) (CliCall.Good conversions) Q command

theorem fetchAdminToken_handles (client : KeycloakAdminClient) :
    Handles conversions client.fetchAdminToken fun _ => True := by
  refine Program.Handles.bind (Program.Handles.perform trivial) fun response _ => ?_
  refine Program.Handles.now fun now => ?_
  exact Program.Handles.bind (Program.Handles.perform trivial) fun _ _ => trivial

theorem getAdminToken_handles (client : KeycloakAdminClient) :
    Handles conversions client.getAdminToken fun _ => True := by
  refine Program.Handles.bind (Program.Handles.perform trivial) fun cache _ => ?_
  cases cache with
  | none => exact fetchAdminToken_handles client
  | some entry =>
    refine Program.Handles.now fun now => ?_
    split
    · trivial
    · exact fetchAdminToken_handles client

theorem authorized_handles (client : KeycloakAdminClient) (request : AdminRequest)
    (fine : request.Fine conversions) :
    Handles conversions (client.authorized request) (request.Good conversions) :=
  Program.Handles.bind (getAdminToken_handles client) fun token _ =>
    Program.Handles.perform (show CliCall.Fine conversions (.admin token request) from fine)

theorem realmExists_handles (client : KeycloakAdminClient) : Handles conversions client.realmExists fun _ => True :=
  Program.Handles.attempt (Program.Handles.bind (authorized_handles client (.getRealm _) trivial)
    fun _ _ => trivial) fun _ => trivial

theorem close_handles : Handles conversions KeycloakAdminClient.close fun _ => True :=
    Program.Handles.perform trivial

theorem importClient_handles (client : KeycloakAdminClient) {incoming : ClientConfig}
    (plain : incoming.settings.Plain conversions) : Handles conversions
      (importClient client incoming) fun _ => True := by
  have looked : Handles conversions (client.getClientByClientId incoming.clientId) fun _ => True :=
    Program.Handles.bind (authorized_handles client (.getClientsBy _ _) trivial) fun _ _ => trivial
  refine Program.Handles.bind looked fun existing _ => ?_
  cases existing with
  | none =>
    exact (authorized_handles client (.createClient _ { incoming with secret := none }) plain).mono
      fun _ _ => trivial
  | some found =>
    exact (authorized_handles client (.updateClient _ found.id { incoming with secret := none }) plain).mono
      fun _ _ => trivial

theorem importClients_handles (client : KeycloakAdminClient) {clients : List ClientConfig}
    (plain : ∀ incoming ∈ clients, incoming.settings.Plain conversions) :
    Handles conversions (importClients client clients) fun _ => True := by
  induction clients with
  | nil => trivial
  | cons incoming rest ih =>
    obtain ⟨own, others⟩ := List.forall_mem_cons.mp plain
    exact (importClient_handles client own).bind fun _ _ => ih others

theorem importCommand_handles (options : ImportOptions) :
    Handles conversions (importCommand options) fun _ => True := by
  refine Program.Handles.bind (Program.Handles.perform trivial) fun config plain => ?_
  refine Program.Handles.tryFinally (Program.Handles.bind (realmExists_handles _) fun found _ => ?_) close_handles
  have listed := importClients_handles ⟨config.realm, options.clientId, options.clientSecret⟩ plain.clients
  dsimp only
  split
  · exact (authorized_handles _ (.createRealm ⟨config.realm, config.settings⟩)
      plain.settings).bind fun _ _ => listed
  · exact (authorized_handles _ (.updateRealm _ ⟨config.realm, config.settings⟩)
      plain.settings).bind fun _ _ => listed

theorem Json.Plain.nullish {settings : Settings} (plain : settings.Plain conversions)
    {key : String} {fallback : Json}
    (own : fallback.Plain conversions) : (nullish settings key fallback).Plain conversions := by
  unfold Cli.nullish
  cases found : (settings.get key).filter (!·.isNull) with
  | none => exact own
  | some value => exact plain key value (Option.filter_eq_some_iff.mp found).1

/-- The exported settings of a client are five, and none goes by the name of another member. -/
theorem exportedSettings_writable {client : KcClient} (plain : client.settings.Plain conversions)
    (secret : Option String) :
    ClientConfig.Writable conversions ⟨client.clientId, secret, exportedSettings client⟩ := by
  have no : (Json.bool false).Plain conversions := trivial
  have none : (Json.arr []).Plain conversions := trivial
  constructor
  · exact ((((plain_empty.set (.nullish plain no)).set (.nullish plain none)).set (.nullish plain no)).set
      (.nullish plain no)).set (.nullish plain no)
  · intro name isNamed
    refine OrderedMap.get_eq_none.mpr fun inside => ?_
    have keys : (exportedSettings client).entries.map Prod.fst = ["publicClient", "redirectUris",
      "directAccessGrantsEnabled", "serviceAccountsEnabled", "standardFlowEnabled"] := rfl
    rw [keys] at inside
    simp only [ClientConfig.named, List.mem_cons, List.not_mem_nil, or_false] at isNamed
    rcases isNamed with rfl | rfl <;> simp at inside

theorem buildExportConfig_writable {data : RealmRepresentation} {clients : List KcClient}
    (plain : data.settings.Plain conversions) (each : ∀ client ∈ clients, client.settings.Plain conversions)
    (clientSecrets : OrderedMap String String) : (buildExportConfig data clients
      clientSecrets).Writable conversions where
  plain := by
    unfold buildExportConfig
    cases found : data.settings.get "enabled" with
    | none => exact plain_empty
    | some enabled => exact plain_empty.set (plain _ _ found)
  apart := by
    intro name isNamed
    simp only [RealmConfig.named, List.mem_cons, List.not_mem_nil, or_false] at isNamed
    unfold buildExportConfig
    cases data.settings.get "enabled" with
    | none => rfl
    | some enabled => rcases isNamed with rfl | rfl <;> rfl
  clients := by
    intro client member
    obtain ⟨found, there, rfl⟩ := List.mem_map.mp member
    exact exportedSettings_writable (each found there) _

theorem collectSecrets_handles (client : KeycloakAdminClient) (clients : List KcClient)
    (clientSecrets : OrderedMap String String) :
    Handles conversions (collectSecrets client clients clientSecrets) fun _ => True := by
  induction clients generalizing clientSecrets with
  | nil => trivial
  | cons found rest ih =>
    have looked : Handles conversions (client.getClientSecret found.id) fun _ => True :=
      Program.Handles.attempt ((authorized_handles client (.getClientSecret _ _) trivial).mono fun _ _ => trivial)
        fun _ => trivial
    refine Program.Handles.bind looked fun secret _ => ?_
    split
    · exact ih _
    · exact ih _

theorem exportCommand_handles (options : ExportOptions) :
    Handles conversions (exportCommand options) fun _ => True := by
  rw [exportCommand_eq]
  refine Program.Handles.tryFinally (Program.Handles.bind
    (P := (·.Writable conversions)) ?_ fun config writable => ?_)
    close_handles
  · refine Program.Handles.bind (authorized_handles _ (.getRealm _) trivial) fun data plain => ?_
    refine Program.Handles.bind (authorized_handles _ (.getClients _) trivial) fun clients each => ?_
    refine Program.Handles.bind (collectSecrets_handles _ _ _) fun clientSecrets _ => ?_
    exact buildExportConfig_writable plain each clientSecrets
  · exact Program.Handles.perform (show CliCall.Fine conversions (.writeFile _ config) from writable)

theorem loadKeycloakConfigFromPath_handles (path : String) (env : Option String) :
    Handles conversions (loadKeycloakConfigFromPath path env) fun _ => True := by
  refine Program.Handles.bind (Program.Handles.perform trivial) fun parsed _ => ?_
  split <;> trivial

end

/-- What is called upon: the command line, or the application when it starts. -/
inductive Invocation
  | imports (options : ImportOptions)
  | exports (options : ExportOptions)
  | loads (configPath : String) (envServerUrl : Option String)

def Invocation.command : Invocation → Command (Option KeycloakConfig)
  | .imports options => (importCommand options).bind fun _ => .done none
  | .exports options => (exportCommand options).bind fun _ => .done none
  | .loads configPath envServerUrl =>
    (loadKeycloakConfigFromPath configPath envServerUrl).bind fun loaded => .done (some loaded)

/-- One invocation after the other, each with its own transient failures. -/
def session {σ : Type} (answer : Failure → (now request : Nat) → (call : CliCall) →
    σ → Except Thrown call.Ans × σ) :
    List (Invocation × Schedule Failure × Nat) → σ →
      List (Except Thrown (Option KeycloakConfig) × List (Entry CliCall.Ans Thrown)) × σ
  | [], state => ([], state)
  | (invocation, schedule, now) :: rest, state =>
    let driven := invocation.command.drive answer 0 schedule now 0 state []
    let later := session answer rest driven.shared
    ((driven.result, driven.log) :: later.1, later.2)

theorem Invocation.handles {conversions : Conversions} (invocation : Invocation) :
    Handles conversions invocation.command fun _ => True := by
  cases invocation with
  | imports options => exact (importCommand_handles options).bind fun _ _ => trivial
  | exports options => exact (exportCommand_handles options).bind fun _ _ => trivial
  | loads configPath envServerUrl =>
    exact (loadKeycloakConfigFromPath_handles configPath envServerUrl).bind fun _ _ => trivial

/-- Over the bytes of its files, every sequence of invocations makes the same requests and ends with the same
results as over the realm files that the bytes stand for. -/
theorem disk_session_agrees {conversions : Conversions} {unreadable : List Nat → Thrown} {setup : KcSetup}
    (new : setup.newRealm.Plain conversions) {world : World} {disk : Disk}
    (mirrors : Mirrors conversions world disk)
    (invocations : List (Invocation × Schedule Failure × Nat)) :
    let onDisk := session (answerDisk conversions unreadable setup) invocations disk
    let structured := session (answerCli setup) invocations world
    onDisk.1 = structured.1 ∧ Mirrors conversions structured.2 onDisk.2 := by
  induction invocations generalizing world disk with
  | nil => exact ⟨rfl, mirrors⟩
  | cons first rest ih =>
    obtain ⟨invocation, schedule, now⟩ := first
    obtain ⟨result, -, log, after⟩ :=
      (disk_simulates new).drive invocation.handles 0 now 0 schedule [] mirrors
    obtain ⟨later, last⟩ := ih after
    exact ⟨by simp only [session, result, log, later], last⟩

namespace Sample

/-- A realm is exported to an empty disk, and the application starts with the file. -/
def exportedThenLoaded : List (Invocation × Schedule Failure × Nat) :=
  [(.exports exportOptions, quiet, 0), (.loads "keycloak-realm.json" none, quiet, 5)]

theorem disk_session_agrees_exportedThenLoaded : (session
    (answerDisk KeycloakAuth.Sample.conversions (fun _ => .error "") setup)
    exportedThenLoaded ⟨serverOf "web" "web's secret", none, .empty⟩).1.map Prod.fst =
      [.ok none, .ok (some ⟨"http://localhost:8080", "app", "web", some "web's secret"⟩)] := by
  have new : setup.newRealm.Plain KeycloakAuth.Sample.conversions := ⟨plain_empty, List.forall_mem_nil _⟩
  have mirrors : Mirrors KeycloakAuth.Sample.conversions ⟨serverOf "web" "web's secret", none, .empty⟩
      ⟨serverOf "web" "web's secret", none, .empty⟩ := by
    refine ⟨rfl, rfl, fun _ _ => rfl, (fun _ _ no => by cases no), fun name realm known => ?_⟩
    rw [serverOf] at known
    by_cases same : name = "app"
    · rw [same, OrderedMap.get_set_self] at known
      exact Option.some.inj known ▸ ⟨plain_empty, List.forall_mem_singleton.mpr plain_empty⟩
    · rw [OrderedMap.get_set_other _ _ same] at known
      cases known
  rw [(disk_session_agrees new mirrors exportedThenLoaded).1]
  rfl

end Sample

end KeycloakAuth.Cli
