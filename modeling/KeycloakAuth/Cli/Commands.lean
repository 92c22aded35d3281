import KeycloakAuth.Cli.AdminApi
import KeycloakAuth.Async.Sequential

namespace KeycloakAuth.Cli
open Async

/-- What a command awaits: the file system, the token endpoint, the admin API and the field `adminTokenCache` of its
client. -/
inductive CliCall
  | readFile (path : String)
  | writeFile (path : String) (config : RealmConfig)
  | readAdminTokenCache
  | writeAdminTokenCache (entry : Option AdminTokenCache)
  | token (realm clientId clientSecret : String)
  | admin (token : String) (request : AdminRequest)

@[reducible] def CliCall.Ans : CliCall → Type
  | .readFile _ => RealmConfig
  | .readAdminTokenCache => Option AdminTokenCache
  | .token _ _ _ => AdminTokenResponse
  | .admin _ request => request.Ans
  | _ => Unit

abbrev Command (α : Type) := Program CliCall.Ans Thrown α

def perform (call : CliCall) : Command call.Ans := Program.perform call

/-- The options of a client for one server. -/
structure KeycloakAdminClient where
  realm : String
  clientId : String
  clientSecret : String

namespace KeycloakAdminClient
variable (self : KeycloakAdminClient)

/-- The part of `getAdminToken` that runs when no cached token is good any more. -/
def fetchAdminToken : Command String := do
  let response : AdminTokenResponse ← perform (.token self.realm self.clientId self.clientSecret)
  let now ← Program.now
  let _ ← perform (.writeAdminTokenCache
    (some ⟨response.accessToken, now + ((response.expiresIn : Int) - 30) * 1000⟩))
  return response.accessToken

def getAdminToken : Command String := do
  let cache : Option AdminTokenCache ← perform .readAdminTokenCache
  match cache with
  | none => self.fetchAdminToken
  | some entry =>
    let now ← Program.now
    if entry.expiresAt > now then return entry.accessToken else self.fetchAdminToken

/-- All methods fetch a token and send it with one request. -/
def authorized (request : AdminRequest) : Command request.Ans := do
  let token ← self.getAdminToken
  perform (.admin token request)

theorem authorized_eq (request : AdminRequest) : self.authorized request =
    self.getAdminToken.bind fun token => Program.perform (CliCall.admin token request) := rfl

def getRealm : Command RealmRepresentation := self.authorized (.getRealm self.realm)

def getClients : Command (List KcClient) := self.authorized (.getClients self.realm)

def realmExists : Command Bool :=
  try
    let _ ← self.getRealm
    pure true
  catch _ => pure false

def createRealm (realmConfig : RealmRepresentation) : Command Unit := self.authorized (.createRealm realmConfig)

def updateRealm (realmConfig : RealmRepresentation) : Command Unit :=
  self.authorized (.updateRealm self.realm realmConfig)

def createClient (clientConfig : ClientConfig) : Command Unit :=
  self.authorized (.createClient self.realm clientConfig)

def getClientByClientId (clientId : String) : Command (Option KcClient) := do
  let clients : List KcClient ← self.authorized (.getClientsBy self.realm clientId)
  return clients.head?

def updateClient (clientUuid : String) (clientConfig : ClientConfig) : Command Unit :=
  self.authorized (.updateClient self.realm clientUuid clientConfig)

def getClientSecret (clientUuid : String) : Command (Option String) :=
  try self.authorized (.getClientSecret self.realm clientUuid) catch _ => pure none

def close : Command Unit := perform (.writeAdminTokenCache none)

end KeycloakAdminClient

structure ImportOptions where
  clientId : String
  clientSecret : String
  filePath : String

def readRealmConfig (filePath : String) : Command RealmConfig := perform (.readFile filePath)

/-- One round of the loop over the clients of the file. -/
def importClient (client : KeycloakAdminClient) (incoming : ClientConfig) : Command Unit := do
  let existing ← client.getClientByClientId incoming.clientId
  let clientPayload : ClientConfig := { incoming with secret := none }
  match existing with
  | some found => client.updateClient found.id clientPayload
  | none => client.createClient clientPayload

def importClients (client : KeycloakAdminClient) : List ClientConfig → Command Unit
  | [] => return
  | incoming :: rest => do
    importClient client incoming
    importClients client rest

def importCommand (options : ImportOptions) : Command Unit := do
  let config ← readRealmConfig options.filePath
  let client : KeycloakAdminClient := ⟨config.realm, options.clientId, options.clientSecret⟩
  Program.tryFinally (do
    let found ← client.realmExists
    let realmPayload : RealmRepresentation := ⟨config.realm, config.settings⟩
    if !found then client.createRealm realmPayload
    else client.updateRealm realmPayload
    importClients client (config.clients.getD [])) KeycloakAdminClient.close

structure ExportOptions where
  realm : String
  clientId : String
  clientSecret : String
  outputPath : String

/-- `fields[key] ?? fallback`. -/
def nullish (settings : Settings) (key : String) (fallback : Json) : Json :=
  ((settings.get key).filter (!·.isNull)).getD fallback

/-- The settings of a client that are exported. -/
def exportedSettings (client : KcClient) : Settings :=
  [("publicClient", Json.bool false), ("redirectUris", .arr []), ("directAccessGrantsEnabled", .bool false),
    ("serviceAccountsEnabled", .bool false), ("standardFlowEnabled", .bool false)].foldl
      (fun settings field => settings.set field.1 (nullish client.settings field.1 field.2)) .empty

/-- A field that is undefined is left out when the file is written. -/
def buildExportConfig (realmData : RealmRepresentation) (clients : List KcClient)
    (clientSecrets : OrderedMap String String) : RealmConfig where
  realm := realmData.realm
  clients := some (clients.map fun client => {
    clientId := client.clientId
    secret := some (((clientSecrets.get client.id).or client.secret).getD "")
    settings := exportedSettings client })
  settings :=
    match realmData.settings.get "enabled" with
    | none => .empty
    | some enabled => OrderedMap.empty.set "enabled" enabled

/-- The loop over the clients of the realm. -/
def collectSecrets (client : KeycloakAdminClient) : List KcClient → OrderedMap String String →
    Command (OrderedMap String String)
  | [], clientSecrets => return clientSecrets
  | found :: rest, clientSecrets => do
    let secret ← client.getClientSecret found.id
    match secret.filter (· ≠ "") with
    | some secret => collectSecrets client rest (clientSecrets.set found.id secret)
    | none => collectSecrets client rest clientSecrets

def exportCommand (options : ExportOptions) : Command Unit :=
  let client : KeycloakAdminClient := ⟨options.realm, options.clientId, options.clientSecret⟩
  Program.tryFinally (do
    let realmData ← client.getRealm
    let clients ← client.getClients
    let clientSecrets ← collectSecrets client clients .empty
    let config := buildExportConfig realmData clients clientSecrets
    perform (.writeFile options.outputPath config)) KeycloakAdminClient.close

structure KeycloakConfig where
  serverUrl : String
  realm : String
  clientId : String
  clientSecret : Option String
deriving DecidableEq, Repr

def loadKeycloakConfigFromPath (configPath : String) (envServerUrl : Option String) : Command KeycloakConfig := do
  let parsed ← perform (.readFile configPath)
  match (parsed.clients.getD []).head? with
  | none => throw (.error ("No clients found in Keycloak realm config: " ++ configPath))
  | some firstClient => return {
      serverUrl := envServerUrl.getD "http://localhost:8080"
      realm := parsed.realm
      clientId := firstClient.clientId
      clientSecret := firstClient.secret }

/-- The surroundings of a command. Files hold realm configurations: what is written is parsed again as it was. -/
structure World where
  realms : KcRealms
  adminTokenCache : Option AdminTokenCache
  files : OrderedMap String RealmConfig

/-- How a request fails transiently, if it does: with a response, or without one. -/
abbrev Failure := Option (Option HttpErrorResponse)

section
variable (setup : KcSetup)

/-- A request either fails without effect or is served. -/
def answerHttp {α : Type} (failure : Failure) (served : Except HttpErrorResponse (α × KcRealms)) (world : World) :
    Except Thrown α × World :=
  match failure with
  | some response => (.error (.axios response), world)
  | none =>
    match served with
    | .error response => (.error (.axios (some response)), world)
    | .ok (answer, realms) => (.ok answer, { world with realms })

def answerCli (failure : Failure) (_now _request : Nat) : (call : CliCall) → World → Except Thrown call.Ans × World
  | .readFile path, world =>
    match world.files.get path with
    | none => (.error (.error ("ENOENT: no such file or directory, open '" ++ path ++ "'")), world)
    | some config => (.ok config, world)
  | .writeFile path config, world => (.ok (), { world with files := world.files.set path config })
  | .readAdminTokenCache, world => (.ok world.adminTokenCache, world)
  | .writeAdminTokenCache entry, world => (.ok (), { world with adminTokenCache := entry })
  | .token realm clientId clientSecret, world =>
    answerHttp failure ((token setup world.realms realm clientId clientSecret).map fun token =>
      (token, world.realms)) world
  | .admin _ request, world => answerHttp failure (serve setup world.realms request) world

/-- A command that is run alone, from a clock reading on. -/
def run {α : Type} (command : Command α) (schedule : Schedule Failure) (now : Nat) (world : World) :
    Driven CliCall.Ans Thrown α World :=
  command.drive (answerCli setup) 0 schedule now 0 world []

end

end KeycloakAuth.Cli
