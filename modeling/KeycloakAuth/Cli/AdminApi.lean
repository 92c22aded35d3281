import KeycloakAuth.Keycloak

namespace KeycloakAuth.Cli
open Async

inductive Json
  | null
  | bool (value : Bool)
  | number (literal : String)
  | str (value : String)
  | arr (items : List Json)
  | obj (fields : List (String × Json))

def Json.isNull : Json → Bool
  | .null => true
  | _ => false

abbrev Settings := OrderedMap String Json

/-- An entry of `clients` in a realm file. The settings are its other fields. -/
structure ClientConfig where
  clientId : String
  secret : Option String
  settings : Settings

/-- What a realm file holds. The settings are its other fields. -/
structure RealmConfig where
  realm : String
  clients : Option (List ClientConfig)
  settings : Settings

/-- A client as Keycloak keeps it and shows it. -/
structure KcClient where
  id : String
  clientId : String
  secret : Option String
  settings : Settings

/-- Within a realm, both the ids and the `clientId`s of clients are unique. -/
structure KcRealm where
  settings : Settings
  clients : List KcClient
  ids : (clients.map (·.id)).Nodup
  clientIds : (clients.map (·.clientId)).Nodup

/-- The realms of a server under their names. -/
abbrev KcRealms := OrderedMap String KcRealm

/-- What depends on the server at hand: what it draws at random, how long its access tokens live in seconds, and
what a new realm starts with. -/
structure KcSetup where
  newId : List String → String
  newId_fresh : ∀ used, newId used ∉ used
  newSecret : List String → String
  accessTokenLifespan : Nat
  newRealm : KcRealm

theorem nodup_concat {α : Type} {key : α → String} {xs : List α} {new : α} (nodup : (xs.map key).Nodup)
    (fresh : key new ∉ xs.map key) : ((xs ++ [new]).map key).Nodup := by
  rw [List.map_append, List.nodup_append]
  refine ⟨nodup, List.nodup_singleton _, fun old member other added same => ?_⟩
  rw [same, List.mem_singleton.mp added] at member
  exact fresh member

theorem nodup_update {α : Type} {key : α → String} {xs : List α} {doomed : α → Prop} [DecidablePred doomed]
    {change : α → α} (nodup : (xs.map key).Nodup) (kept : ∀ x, key (change x) = key x) :
    ((xs.map fun x => if doomed x then change x else x).map key).Nodup := by
  rw [List.map_map, List.map_congr_left fun x _ => show _ = key x from ?_]
  · exact nodup
  · simp only [Function.comp_apply]
    split
    · exact kept x
    · rfl

namespace KcRealm

def client? (realm : KcRealm) (clientId : String) : Option KcClient :=
  realm.clients.find? fun client => client.clientId = clientId

/-- The client can authenticate. -/
def accepts (realm : KcRealm) (clientId clientSecret : String) : Bool :=
  (realm.client? clientId).any fun client => client.secret = some clientSecret

def configured (realm : KcRealm) (settings : Settings) : KcRealm :=
  { realm with settings := realm.settings.merge settings }

def isPublic (payload : ClientConfig) : Bool :=
  match payload.settings.get "publicClient" with
  | some (.bool true) => true
  | _ => false

/-- The new client of a realm. A confidential client that comes without a secret gets a random one. -/
def newClient (setup : KcSetup) (realm : KcRealm) (payload : ClientConfig) : KcClient where
  id := setup.newId (realm.clients.map (·.id))
  clientId := payload.clientId
  secret := payload.secret.or (if isPublic payload then none else some (setup.newSecret (realm.clients.map (·.id))))
  settings := payload.settings

def createClient (setup : KcSetup) (realm : KcRealm) (payload : ClientConfig) : Except HttpErrorResponse KcRealm :=
  if taken : payload.clientId ∈ realm.clients.map (·.clientId) then
    .error ⟨409, some ⟨none, none, some ("Client " ++ payload.clientId ++ " already exists")⟩⟩
  else .ok {
    realm with
    clients := realm.clients ++ [realm.newClient setup payload]
    ids := nodup_concat realm.ids (setup.newId_fresh _)
    clientIds := nodup_concat realm.clientIds taken }

/-- An update leaves out what the payload leaves out, the secret in particular. -/
def updated (payload : ClientConfig) (client : KcClient) : KcClient :=
  { client with secret := payload.secret.or client.secret, settings := client.settings.merge payload.settings }

def updateClient (realm : KcRealm) (id : String) (payload : ClientConfig) : Except HttpErrorResponse KcRealm :=
  if realm.clients.any fun client => client.id = id then .ok {
    realm with
    clients := realm.clients.map fun client => if client.id = id then updated payload client else client
    ids := nodup_update realm.ids fun _ => rfl
    clientIds := nodup_update realm.clientIds fun _ => rfl }
  else .error ⟨404, some ⟨some "Could not find client", none, none⟩⟩

end KcRealm

def notFound : HttpErrorResponse := ⟨404, some ⟨some "Realm not found.", none, none⟩⟩

/-- A realm without its clients. -/
structure RealmRepresentation where
  realm : String
  settings : Settings

/-- The requests below `/admin/realms`. -/
inductive AdminRequest
  | createRealm (payload : RealmRepresentation)
  | getRealm (realm : String)
  | updateRealm (realm : String) (payload : RealmRepresentation)
  | getClients (realm : String)
  | getClientsBy (realm clientId : String)
  | createClient (realm : String) (payload : ClientConfig)
  | updateClient (realm id : String) (payload : ClientConfig)
  | getClientSecret (realm id : String)

@[reducible] def AdminRequest.Ans : AdminRequest → Type
  | .getRealm _ => RealmRepresentation
  | .getClients _ => List KcClient
  | .getClientsBy _ _ => List KcClient
  | .getClientSecret _ _ => Option String
  | _ => Unit

section
variable (setup : KcSetup) (realms : KcRealms)

/-- The token endpoint of a realm, for client credentials. -/
def token (realm clientId clientSecret : String) : Except HttpErrorResponse AdminTokenResponse :=
  match realms.get realm with
  | none => .error ⟨404, some ⟨some "Realm does not exist", none, none⟩⟩
  | some found =>
    if found.accepts clientId clientSecret then .ok ⟨"access token", setup.accessTokenLifespan⟩
    else .error ⟨401, some ⟨some "unauthorized_client", some "Invalid client or Invalid client credentials", none⟩⟩

/-- What a request reads from a realm. -/
def readRealm {α : Type} (realm : String) (read : KcRealm → Except HttpErrorResponse α) :
    Except HttpErrorResponse (α × KcRealms) :=
  match realms.get realm with
  | none => .error notFound
  | some found => (read found).map fun answer => (answer, realms)

/-- A request that changes a realm. -/
def changeRealm (realm : String) (change : KcRealm → Except HttpErrorResponse KcRealm) :
    Except HttpErrorResponse (Unit × KcRealms) :=
  match realms.get realm with
  | none => .error notFound
  | some found => (change found).map fun changed => ((), realms.set realm changed)

def serve : (request : AdminRequest) → Except HttpErrorResponse (request.Ans × KcRealms)
  | .createRealm payload =>
    if (realms.get payload.realm).isSome then
      .error ⟨409, some ⟨none, none, some "Conflict detected. See logs for details"⟩⟩
    else .ok ((), realms.set payload.realm (setup.newRealm.configured payload.settings))
  | .getRealm realm => readRealm realms realm fun found => .ok ⟨realm, found.settings⟩
  | .updateRealm realm payload => changeRealm realms realm fun found => .ok (found.configured payload.settings)
  | .getClients realm => readRealm realms realm fun found => .ok found.clients
  | .getClientsBy realm clientId => readRealm realms realm fun found =>
      .ok (found.clients.filter fun client => client.clientId = clientId)
  | .createClient realm payload => changeRealm realms realm fun found => found.createClient setup payload
  | .updateClient realm id payload => changeRealm realms realm fun found => found.updateClient id payload
  | .getClientSecret realm id => readRealm realms realm fun found =>
      match found.clients.find? fun client => client.id = id with
      | none => .error ⟨404, some ⟨some "Could not find client", none, none⟩⟩
      | some client => .ok client.secret

end

namespace Sample

def longest (ids : List String) : Nat := ids.foldr (fun id length => max id.length length) 0

theorem length_le_longest {id : String} {ids : List String} (member : id ∈ ids) : id.length ≤ longest ids := by
  induction ids with
  | nil => cases member
  | cons other rest ih =>
    rcases List.mem_cons.mp member with rfl | later
    · exact Nat.le_max_left _ _
    · exact Nat.le_trans (ih later) (Nat.le_max_right _ _)

/-- A server that names its clients `x`, `xx`, … -/
def setup : KcSetup where
  newId used := String.ofList (List.replicate (longest used + 1) 'x')
  newId_fresh used := by
    intro member
    have small := length_le_longest member
    rw [String.length_ofList, List.length_replicate] at small
    omega
  newSecret _ := "0mbXUyPqTzcd"
  accessTokenLifespan := 60
  newRealm := ⟨.empty, [], List.nodup_nil, List.nodup_nil⟩

/-- A realm with one client, a confidential one. -/
def realmOf (clientId secret : String) : KcRealm where
  settings := .empty
  clients := [⟨"1", clientId, some secret, .empty⟩]
  ids := List.nodup_singleton _
  clientIds := List.nodup_singleton _

/-- A file that lists one client. -/
def fileOf (clientId secret : String) : RealmConfig :=
  ⟨"app", some [⟨clientId, some secret, OrderedMap.empty.set "publicClient" (.bool false)⟩], .empty⟩

end Sample

end KeycloakAuth.Cli
