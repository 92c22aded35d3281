import KeycloakAuth.Cli.Secrets

namespace KeycloakAuth.Cli
open Async

/-- What the lookups have found are secrets of clients of the realm, each under the id of its client. -/
def SecretsOf (realm : KcRealm) (clientSecrets : OrderedMap String String) : Prop :=
  ∀ id secret, clientSecrets.get id = some secret → ∃ client ∈ realm.clients,
    client.id = id ∧ client.secret = some secret

/-- An entry of the exported file. -/
def exportedClient (client : KcClient) : ClientConfig :=
  ⟨client.clientId, some (client.secret.getD ""), exportedSettings client⟩

section
variable {setup : KcSetup} {allowed : Failure → Prop} {client : KeycloakAdminClient}
  {realms : KcRealms} {realm : KcRealm}
  {clientSecrets : OrderedMap String String}

/-- Where the lookup of a secret has failed, the list of clients makes up for it. -/
theorem buildExportConfig_clients {data : RealmRepresentation} (sound : SecretsOf realm clientSecrets) :
    (buildExportConfig data realm.clients clientSecrets).clients = some (realm.clients.map exportedClient) := by
  refine congrArg some (List.map_congr_left fun found member => ?_)
  have secret : (clientSecrets.get found.id).or found.secret = found.secret := by
    cases looked : clientSecrets.get found.id with
    | none => rfl
    | some value =>
      obtain ⟨other, inRealm, same, own⟩ := sound _ _ looked
      rw [List.inj_on_of_nodup_map realm.ids member inRealm same.symm, own]
      rfl
  rw [secret]
  rfl

theorem getClientSecret_succeeds (registered : client.Registered realms realm) {found : KcClient}
    (member : found ∈ realm.clients) : Succeeds setup allowed (client.getClientSecret found.id) realms
      (fun secret after => after = realms ∧ (secret = none ∨ secret = found.secret)) (· = realms) := by
  have served : serve setup realms (.getClientSecret client.realm found.id) = .ok (found.secret, realms) := by
    have looked : (realm.clients.find? fun other => other.id = found.id) = some found :=
      (find_unique realm.ids).mpr ⟨member, rfl⟩
    simp only [serve, registered.reads, looked, Except.map]
  intro p now drawn cache files log
  refine Program.Ensures.attempt (authorized_succeeds registered served p now drawn cache files log) ?_ ?_
  · intro secret clock world log ended
    cases ended with
    | done fine => exact .done ⟨fine.2, .inr fine.1⟩
  · intro error clock drawn world log ended
    cases ended with
    | failed _ kept => exact .done ⟨kept, .inl rfl⟩

/-- By induction on the clients that are left. -/
theorem collectSecrets_succeeds (registered : client.Registered realms realm) {clients : List KcClient}
    (members : ∀ found ∈ clients, found ∈ realm.clients) (sound : SecretsOf realm clientSecrets) :
    Succeeds setup allowed (collectSecrets client clients clientSecrets) realms
      (fun secrets after => after = realms ∧ SecretsOf realm secrets) (· = realms) := by
  induction clients generalizing clientSecrets with
  | nil => exact .done ⟨rfl, sound⟩
  | cons found rest ih =>
    have inRealm := members found List.mem_cons_self
    have later := fun other member => members other (List.mem_cons_of_mem _ member)
    refine (getClientSecret_succeeds registered inRealm).bind ?_ fun _ same => same
    rintro secret _ ⟨rfl, looked⟩
    cases kept : secret.filter (· ≠ "") with
    | none => exact ih later sound
    | some value =>
      have own : found.secret = some value := by
        rcases looked with rfl | rfl
        · cases kept
        · exact (Option.filter_eq_some_iff.mp kept).1
      refine ih later fun id secret' said => ?_
      by_cases same : id = found.id
      · rw [same, OrderedMap.get_set_self] at said
        cases said
        exact ⟨found, inRealm, same.symm, own⟩
      · rw [OrderedMap.get_set_other _ _ same] at said
        exact sound id secret' said

/-- The file shows the realm and its clients, in the order of the server. -/
def Exported (name : String) (realm : KcRealm) (config : RealmConfig) : Prop :=
  config.realm = name ∧ config.clients = some (realm.clients.map exportedClient)

/-- `exportCommand` up to the writing of the file. -/
def readExport (client : KeycloakAdminClient) : Command RealmConfig := do
  let realmData ← client.getRealm
  let clients ← client.getClients
  let clientSecrets ← collectSecrets client clients .empty
  return buildExportConfig realmData clients clientSecrets

theorem exportCommand_eq (options : ExportOptions) : exportCommand options =
    ((readExport ⟨options.realm, options.clientId, options.clientSecret⟩).bind fun config =>
      Program.perform (CliCall.writeFile options.outputPath config)).tryFinally KeycloakAdminClient.close := by
  simp only [exportCommand, readExport, perform, Program.bind_eq, Program.bind_assoc,
    Program.pure_eq, Program.done_bind]

theorem readExport_succeeds (registered : client.Registered realms realm) :
    Succeeds setup allowed (readExport client) realms
      (fun config after => after = realms ∧ Exported client.realm realm config) (· = realms) := by
  have shown : serve setup realms (.getRealm client.realm) = .ok (⟨client.realm, realm.settings⟩, realms) :=
    registered.reads _
  have listed : serve setup realms (.getClients client.realm) = .ok (realm.clients, realms) := registered.reads _
  simp only [readExport, Program.bind_eq]
  refine (authorized_succeeds registered shown).bind ?_ fun _ same => same
  rintro realmData _ ⟨rfl, rfl⟩
  refine (authorized_succeeds registered listed).bind ?_ fun _ same => same
  rintro clients _ ⟨rfl, rfl⟩
  have nothing : SecretsOf realm .empty := by
    intro id secret no
    cases no
  refine (collectSecrets_succeeds registered (fun _ member => member) nothing).bind ?_ fun _ same => same
  rintro clientSecrets _ ⟨rfl, sound⟩
  exact .done ⟨rfl, rfl, buildExportConfig_clients sound⟩

end

section
variable (setup : KcSetup) {options : ExportOptions} {schedule again : Schedule Failure} (now later : Nat)
  {realms : KcRealms} {realm : KcRealm} (files : OrderedMap String RealmConfig) {env : Option String}

/-- An export in which no call fails. -/
theorem export_undisturbed (known : realms.get options.realm = some realm)
    (accepts : realm.accepts options.clientId options.clientSecret = true) (never : NeverFails schedule) :
    let driven := run setup (exportCommand options) schedule now ⟨realms, none, files⟩
    driven.result = .ok () ∧ driven.shared.realms = realms ∧
      ∃ config, driven.shared.files.get options.outputPath = some config ∧ Exported options.realm realm config := by
  have reads : Succeeds setup (· = none) (readExport ⟨options.realm, options.clientId, options.clientSecret⟩) realms
      _ _ := readExport_succeeds ⟨known, accepts⟩
  have ensures : (exportCommand options).Ensures (answerCli setup)
    (· = none) 0 (fun result _ world _ => result = .ok () ∧
      world.realms = realms ∧ ∃ config, world.files.get options.outputPath = some config ∧
        Exported options.realm realm config) now 0 ⟨realms, none, files⟩ [] := by
    rw [exportCommand_eq]
    refine Program.Ensures.tryFinally (P := fun result _ world _ => result = .ok () ∧ world.realms = realms ∧
      ∃ config, world.files.get options.outputPath = some config ∧ Exported options.realm realm config) ?_ ?_
    · refine Program.Ensures.bind (reads _ _ _ _ _ _) ?_ ?_
      · intro config clock drawn world log ended
        cases ended with
        | done fine =>
          refine Program.Ensures.call (CliCall.writeFile options.outputPath config) fun _ later _ _ => ?_
          exact ⟨rfl, fine.1, config, OrderedMap.get_set_self .., fine.2⟩
      · intro error clock world log ended
        cases ended with
        | failed troubled => exact absurd troubled not_troubled
    · rintro result clock drawn world log ⟨rfl, same, written⟩
      exact .perform (fun _ _ _ _ _ _ => ⟨rfl, same, written⟩) fun _ _ _ _ _ no => by cases no
  exact ensures.drive never

/-- What the application loads from an exported file is the client that has exported it if that is the first
client of the realm. -/
theorem export_then_load_iff (known : realms.get options.realm = some realm)
    (accepts : realm.accepts options.clientId options.clientSecret = true) (never : NeverFails schedule) :
    let driven := run setup (exportCommand options) schedule now ⟨realms, none, files⟩
    driven.result = .ok () ∧ ((∃ loaded,
        (run setup (loadKeycloakConfigFromPath options.outputPath env) again later
          driven.shared).result = .ok loaded ∧
        loaded.realm = options.realm ∧ loaded.clientId = options.clientId ∧
        loaded.clientSecret = some options.clientSecret) ↔
      (realm.clients.head?.map (·.clientId)) = some options.clientId) := by
  intro driven
  obtain ⟨ends, -, config, file, named, listed⟩ := export_undisturbed setup now files known accepts never
  refine ⟨ends, ?_⟩
  obtain ⟨own, found, secret⟩ := KcRealm.accepts_iff.mp accepts
  obtain ⟨member, ownId⟩ := KcRealm.client?_eq_some.mp found
  cases order : realm.clients with
  | nil =>
    rw [order] at member
    cases member
  | cons first rest =>
    have head : (config.clients.getD []).head? = some (exportedClient first) := by rw [listed, order]; rfl
    have loads : (run setup (loadKeycloakConfigFromPath options.outputPath env) again later driven.shared).result =
        .ok _ := loadKeycloakConfigFromPath_result file head
    simp only [loads, Except.ok.injEq, exists_eq_left', named, true_and, List.head?_cons, Option.map_some,
      Option.some.injEq, exportedClient]
    refine ⟨And.left, fun same => ⟨same, ?_⟩⟩
    have inRealm : first ∈ realm.clients := by rw [order]; exact List.mem_cons_self
    rw [List.inj_on_of_nodup_map realm.clientIds inRealm member (same.trans ownId.symm), secret]
    rfl

end

namespace Sample

def exportOptions : ExportOptions := ⟨"app", "web", "web's secret", "keycloak-realm.json"⟩

/-- The only client of a realm exports it. -/
theorem export_then_load_iff_web : ∃ loaded, (run setup (loadKeycloakConfigFromPath
    "keycloak-realm.json" none) quiet 5
      (run setup (exportCommand exportOptions) quiet 0 ⟨serverOf "web" "web's secret",
        none, .empty⟩).shared).result =
        .ok loaded ∧
    loaded.realm = "app" ∧ loaded.clientId = "web" ∧ loaded.clientSecret = some "web's secret" := by
  have known : (serverOf "web" "web's secret").get exportOptions.realm = some (realmOf "web" "web's secret") := rfl
  have accepts : (realmOf "web" "web's secret").accepts exportOptions.clientId
    exportOptions.clientSecret = true := by
    decide
  exact (export_then_load_iff setup 0 5 .empty known accepts fun _ => rfl).2.mpr rfl

/-- A realm as Keycloak makes it, with a client of its own before the one that has been registered. -/
def realmWithAccount : KcRealm where
  settings := .empty
  clients := [⟨"1", "account", none, OrderedMap.empty.set "publicClient" (.bool true)⟩,
    ⟨"2", "web", some "web's secret", .empty⟩]
  ids := by decide
  clientIds := by decide

/-- The application goes by the name of `account`, with no secret. -/
theorem exported_client_not_loaded :
    let driven := run setup (exportCommand exportOptions) quiet 0
      ⟨OrderedMap.empty.set "app" realmWithAccount, none, .empty⟩
    driven.result = .ok () ∧ ¬ ∃ loaded,
      (run setup (loadKeycloakConfigFromPath "keycloak-realm.json" none) quiet 5
        driven.shared).result = .ok loaded ∧
      loaded.realm = "app" ∧ loaded.clientId = "web" ∧ loaded.clientSecret = some "web's secret" := by
  refine ⟨rfl, ?_⟩
  rintro ⟨loaded, loads, -, named, -⟩
  cases loads
  exact absurd named (by decide)

end Sample

end KeycloakAuth.Cli
