import KeycloakAuth.DrizzleTokenStore
import KeycloakAuth.Async.Linearization

namespace KeycloakAuth
open Async

/-- A row of `auth_tokens`. -/
structure TokenEntity where
  id : Str
  userId : String
  type : TokenType
  tokenHash : Str
  expiresAt : Date
  consumedAt : Option Date
  createdAt : Date
deriving DecidableEq, Repr

/-- A row of `auth_user_data`. -/
structure UserDataEntity where
  id : Str
  userId : String
  key : String
  value : Str
deriving DecidableEq, Repr

namespace UserDataEntity

/-- The columns of the constraint `@Unique(["userId", "key"])`. -/
def target (row : UserDataEntity) : String × String := (row.userId, row.key)

end UserDataEntity

/-- The database behind `TypeOrmTokenStore`. -/
structure Database where
  tokens : List TokenEntity
  userData : List UserDataEntity
deriving DecidableEq, Repr

def Database.empty : Database := ⟨[], []⟩

/-- What the methods of the two repositories send to the database. -/
inductive Statement
  | insertToken (row : TokenEntity)
  | findToken (tokenHash : Str) (type : TokenType)
  | consumeToken (id : Str) (consumedAt : Date)
  | deleteTokensBefore (now : Nat)
  | deleteTokensOf (userId : String)
  | findUserData (userId key : String)
  | updateUserData (id : Str) (value : Str)
  | insertUserData (row : UserDataEntity)
  | deleteUserData (userId key : String)

@[reducible] def Statement.Ans : Statement → Type
  | .findToken _ _ => Option TokenEntity
  | .consumeToken _ _ => Nat
  | .findUserData _ _ => Option UserDataEntity
  | _ => Unit

/-- An `INSERT` that breaks a constraint changes nothing. -/
def inserted (constraint : String) (rows : Option Database) (db : Database) : Except Thrown Unit × Database :=
  match rows with
  | none => (.error (.error ("UNIQUE constraint failed: " ++ constraint)), db)
  | some after => (.ok (), after)

section
variable (earlier : Date → Nat → Bool)

/-- One statement. How dates in a column compare with a time is up to the database. -/
def execute : (statement : Statement) → Database → Except Thrown statement.Ans × Database
  | .insertToken row, db =>
    inserted "auth_tokens.id" ((Sql.insert TokenEntity.id row db.tokens).map fun tokens => { db with tokens }) db
  | .findToken tokenHash type, db =>
    (.ok (Sql.selectFirst (fun row => row.tokenHash = tokenHash ∧ row.type = type) db.tokens), db)
  | .consumeToken id consumedAt, db =>
    let updated := Sql.update (fun row => row.id = id ∧ row.consumedAt = none)
      (fun row => { row with consumedAt := some consumedAt }) db.tokens
    (.ok updated.1.length, { db with tokens := updated.2 })
  | .deleteTokensBefore now, db =>
    (.ok (), { db with tokens := Sql.delete (fun row => earlier row.expiresAt now) db.tokens })
  | .deleteTokensOf userId, db =>
    (.ok (), { db with tokens := Sql.delete (fun row => row.userId = userId) db.tokens })
  | .findUserData userId key, db => (.ok (Sql.selectFirst (fun row => row.target = (userId, key)) db.userData), db)
  | .updateUserData id value, db =>
    let updated := Sql.update (fun row => row.id = id) (fun row => { row with value }) db.userData
    (.ok (), { db with userData := updated.2 })
  | .insertUserData row, db =>
    if db.userData.any fun old => old.target = row.target then inserted
      "auth_user_data.userId, auth_user_data.key" none db
    else inserted "auth_user_data.id"
      ((Sql.insert UserDataEntity.id row db.userData).map fun userData => { db with userData }) db
  | .deleteUserData userId key, db =>
    (.ok (), { db with userData := Sql.delete (fun row => row.target = (userId, key)) db.userData })

end

namespace TypeOrmTokenStore

abbrev Method := Program Statement.Ans Thrown Reply

def perform (statement : Statement) : Program Statement.Ans Thrown statement.Ans := Program.perform statement

def record (row : TokenEntity) : TokenRecord where
  id := row.id
  userId := row.userId
  type := row.type
  token := row.tokenHash
  expiresAt := row.expiresAt
  consumedAt := row.consumedAt
  createdAt := row.createdAt

def save (saved : TokenRecord) : Method := do
  let id ← Program.random
  perform (.insertToken
    ⟨.random id, saved.userId, saved.type, hashToken saved.token, saved.expiresAt, none, saved.createdAt⟩)
  return .done

def findByToken (token : Str) (type : TokenType) : Method := do
  let row ← perform (.findToken (hashToken token) type)
  return .found (Option.map record row)

def markConsumed (id : Str) : Method := do
  let now ← Program.now
  let affected ← perform (.consumeToken id (.ofMs now))
  return .marked (decide (0 < (affected : Nat)))

def deleteExpired : Method := do
  let now ← Program.now
  perform (.deleteTokensBefore now)
  return .done

def deleteAllForUser (userId : String) : Method := do
  perform (.deleteTokensOf userId)
  return .done

/-- The part of `saveUserData` that runs when the row has been looked for. -/
def putUserData (userId key : String) (value : Str) : Option UserDataEntity → Method
  | some existing => do
    perform (.updateUserData existing.id value)
    return .done
  | none => do
    let id ← Program.random
    perform (.insertUserData ⟨.random id, userId, key, value⟩)
    return .done

def saveUserData (userId key : String) (value : Str) : Method := do
  let existing ← perform (.findUserData userId key)
  putUserData userId key value existing

def getUserData (userId key : String) : Method := do
  let row ← perform (.findUserData userId key)
  return .data (Option.map UserDataEntity.value row)

def deleteUserData (userId key : String) : Method := do
  perform (.deleteUserData userId key)
  return .done

def method : StoreCall → Method
  | .save saved => save saved
  | .findByToken token type => findByToken token type
  | .markConsumed id => markConsumed id
  | .deleteExpired => deleteExpired
  | .deleteAllForUser userId => deleteAllForUser userId
  | .saveUserData userId key value => saveUserData userId key value
  | .getUserData userId key => getUserData userId key
  | .deleteUserData userId key => deleteUserData userId key

end TypeOrmTokenStore

/-- Calls of the store that are served at the same time, over one database. A statement may fail without effect. -/
def typeOrmSystem (earlier : Date → Nat → Bool) :
    System Statement.Ans Thrown StoreCall Reply Database (Option String) Empty where
  body := TypeOrmTokenStore.method
  perform failure _ _ statement db :=
    match failure with
    | some message => (.error (.error message), db)
    | none => execute earlier statement db
  disturb change _ _ := change.elim

end KeycloakAuth
