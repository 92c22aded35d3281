import KeycloakAuth.PasswordReset
import KeycloakAuth.Expiry
import KeycloakAuth.Async.Unwinding

namespace KeycloakAuth
open Async InMemoryTokenStore

/-- Two worlds in which the provider finds the same, and in which the record with the id `paid` is the same. -/
structure AlikeFor {κ : Type} (paid : Str) (world other : World κ) : Prop where
  keycloak : other.keycloak = world.keycloak
  cache : other.adminTokenCache = world.adminTokenCache
  userData : other.store.userData = world.store.userData
  record : other.store.tokens.get paid = world.store.tokens.get paid

/-- The calls that look nothing up and take no other record than the one with the id `paid`. -/
def Call.takesOnly (paid : Str) : Call → Prop
  | .store (.findByToken _ _) => False
  | .store (.markConsumed id) => id = paid
  | _ => True

section
variable {κ : Type} {server : KeycloakServer κ} {platform : Platform} {options : Deployment} {paid : Str}
  {world other : World κ}

theorem get_deleteRecords (store : InMemoryTokenStore) (doomed : TokenRecord → Bool) (id : Str) :
    (store.deleteRecords doomed).tokens.get id = (store.tokens.get id).filter fun record => !doomed record := by
  refine Option.ext fun record => ?_
  rw [OrderedMap.get_eq_some, InMemoryTokenStore.deleteRecords, OrderedMap.deleteWhere_entries, List.mem_filter,
    Option.filter_eq_some_iff, OrderedMap.get_eq_some]

theorem AlikeFor.deleteRecords (same : AlikeFor paid world other) (doomed : TokenRecord → Bool) :
    AlikeFor paid { world with store := world.store.deleteRecords doomed }
      { other with store := other.store.deleteRecords doomed } := by
  refine { same with record := ?_ }
  rw [get_deleteRecords, get_deleteRecords, same.record]

theorem AlikeFor.answerHttp (same : AlikeFor paid world other) (plan : Plan) (call : HttpCall) :
    (answerHttp server plan call other).1 = (answerHttp server plan call world).1 ∧
      AlikeFor paid (answerHttp server plan call world).2 (answerHttp server plan call other).2 := by
  unfold KeycloakAuth.answerHttp
  rw [same.keycloak]
  split
  · exact ⟨rfl, same⟩
  split
  · exact ⟨rfl, same⟩
  · exact ⟨rfl, { same with keycloak := rfl }⟩

theorem AlikeFor.answerProvider (same : AlikeFor paid world other) (plan : Plan) (call : ProviderCall) :
    (answerProvider server plan call other).1 = (answerProvider server plan call world).1 ∧
      AlikeFor paid (answerProvider server plan call world).2 (answerProvider server plan call other).2 := by
  cases call with
  | http exchange => exact same.answerHttp plan exchange
  | getUserData userId key =>
    refine ⟨?_, same⟩
    simp only [KeycloakAuth.answerProvider, getUserData, same.userData]
  | saveUserData userId key value =>
    refine ⟨rfl, { same with userData := ?_ }⟩
    simp only [KeycloakAuth.answerProvider, saveUserData, same.userData]
  | deleteUserData userId key =>
    refine ⟨rfl, ?_⟩
    simp only [KeycloakAuth.answerProvider, deleteUserData, same.userData]
    split
    · exact same
    · exact { same with userData := rfl }
  | readAdminTokenCache => exact ⟨congrArg Except.ok same.cache, same⟩
  | writeAdminTokenCache entry => exact ⟨rfl, { same with cache := rfl }⟩
  | toDataURL uri => exact ⟨rfl, same⟩

theorem AlikeFor.evalMethod (same : AlikeFor paid world other) {α : Type} (plan : Plan) (now request : Nat)
    (method : KeycloakAuthProvider.Method α) :
    (evalMethod server plan now request method other).1 = (evalMethod server plan now request method world).1 ∧
      AlikeFor paid (evalMethod server plan now request method world).2
        (evalMethod server plan now request method other).2 := by
  have agrees : method.Agrees (KeycloakAuth.answerProvider server plan) now request (AlikeFor paid) :=
    .of_calls (fun call _ _ alike => alike.answerProvider plan call) method
  obtain ⟨result, -, after⟩ := agrees 0 world other same
  exact ⟨result, after⟩

theorem AlikeFor.answerAuth (same : AlikeFor paid world other) (plan : Plan) (now request : Nat) (call : AuthCall) :
    (answerAuth server platform options plan now request call other).1 =
        (answerAuth server platform options plan now request call world).1 ∧
      AlikeFor paid (answerAuth server platform options plan now request call world).2
        (answerAuth server platform options plan now request call other).2 := by
  cases call <;> exact same.evalMethod plan now request _

/-- What `markConsumed` does depends on the record with that id alone. -/
theorem markConsumed_get (store : InMemoryTokenStore) (id : Str) (now : Nat) :
    (store.markConsumed id now).1 = (store.tokens.get id).any (·.consumedAt.isNone) ∧
      (store.markConsumed id now).2.userData = store.userData ∧
      (store.markConsumed id now).2.tokens.get id = (store.tokens.get id).map fun record =>
        if record.consumedAt.isSome then record else { record with consumedAt := some (.ofMs now) } := by
  unfold InMemoryTokenStore.markConsumed
  split
  · rename_i missing
    exact ⟨by rw [missing]; rfl, rfl, by rw [missing]; rfl⟩
  · rename_i record found
    split
    · rename_i used
      rw [found]
      simp [used]
    · rename_i unused
      have fresh : (store.tokens.get id).any (·.consumedAt.isNone) = true := by
        rw [found]
        simpa using unused
      refine ⟨fresh.symm, rfl, (OrderedMap.get_set_self ..).trans ?_⟩
      rw [found]
      simp [unused]

theorem AlikeFor.markConsumed (same : AlikeFor paid world other) (now : Nat) :
    (other.store.markConsumed paid now).1 = (world.store.markConsumed paid now).1 ∧
      AlikeFor paid { world with store := (world.store.markConsumed paid now).2 }
        { other with store := (other.store.markConsumed paid now).2 } := by
  obtain ⟨answer, data, record⟩ := markConsumed_get world.store paid now
  obtain ⟨answer', data', record'⟩ := markConsumed_get other.store paid now
  refine ⟨by rw [answer, answer', same.record], { same with userData := ?_, record := ?_ }⟩
  · exact data'.trans (same.userData.trans data.symm)
  · exact record'.trans (by rw [same.record]; exact record.symm)

theorem AlikeFor.save (same : AlikeFor paid world other) (record : TokenRecord) :
    AlikeFor paid { world with store := world.store.save record }
      { other with store := other.store.save record } := by
  refine { same with userData := same.userData, record := ?_ }
  simp only [InMemoryTokenStore.save]
  by_cases own : paid = record.id
  · rw [own, OrderedMap.get_set_self, OrderedMap.get_set_self]
  · rw [OrderedMap.get_set_other _ _ own, OrderedMap.get_set_other _ _ own, same.record]

/-- A call that takes no other record is answered alike. -/
theorem AlikeFor.answerCall (same : AlikeFor paid world other) (plan : Plan) (now request : Nat) {call : Call}
    (fine : call.takesOnly paid) :
    (answerCall server platform options plan now request call other).1 =
        (answerCall server platform options plan now request call world).1 ∧
      AlikeFor paid (answerCall server platform options plan now request call world).2
        (answerCall server platform options plan now request call other).2 := by
  cases call with
  | auth call => exact same.answerAuth plan now request call
  | render template link => exact ⟨rfl, same⟩
  | send mail => exact ⟨rfl, same⟩
  | store call =>
    cases call with
    | save record => exact ⟨rfl, same.save record⟩
    | findByToken token type => exact fine.elim
    | markConsumed id =>
      obtain rfl : id = paid := fine
      obtain ⟨answer, after⟩ := same.markConsumed now
      exact ⟨congrArg Except.ok answer, after⟩
    | deleteExpired => exact ⟨rfl, same.deleteRecords _⟩
    | deleteAllForUser userId => exact ⟨rfl, same.deleteRecords _⟩
    | saveUserData userId key value =>
      refine ⟨rfl, { same with userData := ?_ }⟩
      simp only [KeycloakAuth.answerCall, answerStore, saveUserData, same.userData]
    | getUserData userId key =>
      refine ⟨?_, same⟩
      simp only [KeycloakAuth.answerCall, answerStore, getUserData, same.userData]
    | deleteUserData userId key =>
      refine ⟨rfl, ?_⟩
      simp only [KeycloakAuth.answerCall, answerStore, deleteUserData, same.userData]
      split
      · exact same
      · exact { same with userData := rfl }

/-- What is not on file is not on file after a removal. -/
theorem findByToken_deleteRecords_none {store : InMemoryTokenStore} {doomed : TokenRecord → Bool} {token : Str}
    {type : TokenType} (missing : store.findByToken token type = none) :
    (store.deleteRecords doomed).findByToken token type = none := by
  rw [findByToken_eq, List.find?_eq_none] at missing ⊢
  intro record member
  rw [deleteRecords_records] at member
  exact missing record (List.mem_filter.mp member).1

/-- The records with a token that has been drawn are one. -/
theorem reach_records_eq {permitted : AuthConfig κ → AuthEvent κ → Prop} {clock : Nat}
    {keycloak : κ} {cfg : AuthConfig κ}
    (reach : (authSystem server platform options).Reach permitted (.start clock (.fresh keycloak)) cfg)
    {first second : TokenRecord} (one : first ∈ cfg.shared.store.records) (two : second ∈ cfg.shared.store.records)
    (drawn : first.type ≠ .refreshToken) (typed : second.type = first.type) (same : first.token = second.token) :
    first = second := by
  obtain ⟨original, saved, _, rfl⟩ := (reach_ledger reach).stems first one
  obtain ⟨original', saved', _, rfl⟩ := (reach_ledger reach).stems second two
  have equal := reach_drawn_eq reach saved saved' drawn (typed ▸ drawn) (Str.sha256.inj same)
  have ids : original.id = original'.id := congrArg TokenRecord.id equal
  exact eq_of_id_eq one two ids

/-- The configuration right after a purge. -/
def purged (cfg : AuthConfig κ) : AuthConfig κ :=
  { cfg with shared := { cfg.shared with store := cfg.shared.store.deleteExpired cfg.clock } }

/-- The same configuration some time later. -/
def later (cfg : AuthConfig κ) (delay : Nat) : AuthConfig κ := { cfg with clock := cfg.clock + delay }

variable (server platform options) in
/-- The request begins with a lookup, and goes on with what it finds: it takes that record or none, and fails where
there is none or where it has expired. -/
structure Presents (request : Request) (type : TokenType) (token : Str)
    (next : Option TokenRecord → Service Response) :
    Prop where
  body : request.body platform options = (Service.tokenStore (.findByToken token type)).bind next
  takes : ∀ record, (next (some record)).Only (Call.takesOnly record.id)
  missing : ∃ error, next none = .fail error
  expired : ∀ record p now drawn world log, record.expiresAt.before now = true →
    (next (some record)).Ensures (answerCall server platform options) (fun _ => True) p
      (fun result _ _ _ => ∀ response, result ≠ .ok response) now drawn world log

section
variable {cfg : AuthConfig κ} {schedule : Schedule Plan} {delay : Nat} {request : Request} {type : TokenType}
  {token : Str} {record : TokenRecord} {next : Option TokenRecord → Service Response}

theorem Presents.result (presents : Presents server platform options request type token next) (cfg : AuthConfig κ)
    (schedule : Schedule Plan) : (authSystem server platform options).result cfg schedule request =
      ((next (cfg.shared.store.findByToken token type)).drive
        (answerCall server platform options) cfg.threads.length
        (fun index => schedule (index + 1)) (cfg.clock + (schedule 0).1) 0 cfg.shared (cfg.log ++
          [⟨cfg.threads.length, .store (.findByToken token type), .ok (cfg.shared.store.findByToken token type),
            cfg.clock + (schedule 0).1⟩])).result := by
  refine (congrArg (fun body : Service Response => (body.drive (KeycloakAuth.answerCall server platform options)
    cfg.threads.length schedule cfg.clock 0 cfg.shared cfg.log).result) presents.body).trans ?_
  exact congrArg Driven.result (Program.drive_perform_ok rfl)

/-- A purge that spares the record which is found changes nothing for the request. -/
theorem Presents.result_of_kept (presents : Presents server platform options request type token next)
    (found : cfg.shared.store.findByToken token type = some record)
    (kept : record.expiresAt.before cfg.clock = false) :
    (authSystem server platform options).result (later (purged cfg) delay) schedule request =
      (authSystem server platform options).result (later cfg delay) schedule request := by
  have still : (later (purged cfg) delay).shared.store.findByToken token type = some record :=
    findByToken_deleteRecords found kept
  have present : (later cfg delay).shared.store.findByToken token type = some record := found
  rw [presents.result, presents.result, still, present]
  refine (presents.takes record).drive_alike (fun choice now call state other fine
    (same : AlikeFor record.id state other) => same.answerCall choice now _ fine) ⟨rfl, rfl, rfl, ?_⟩
  have own := mem_records.mp (findByToken_spec found).1
  refine (get_deleteRecords ..).trans ?_
  simp [later, own, kept]

theorem Presents.fails_of_missing (presents : Presents server platform options request type token next)
    (missing : cfg.shared.store.findByToken token type = none) (response : Response) :
    (authSystem server platform options).result cfg schedule request ≠ .ok response := by
  obtain ⟨error, fails⟩ := presents.missing
  rw [presents.result, missing, fails]
  exact fun no => by cases no

theorem Presents.fails_of_expired (presents : Presents server platform options request type token next)
    (found : cfg.shared.store.findByToken token type = some record)
    (past : record.expiresAt.before cfg.clock = true)
    (response : Response) : (authSystem server platform options).result cfg schedule request ≠ .ok response := by
  rw [presents.result, found]
  have ensured (log : List LogEntry) := presents.expired record cfg.threads.length (cfg.clock + (schedule 0).1) 0
    cfg.shared log (Date.before_of_le (Nat.le_add_right _ _) past)
  exact (ensured _).drive (fun _ => trivial) response

/-- The lookup after a purge answers with the same record, if that one is spared. Otherwise there is another record
with that token, or none. -/
theorem Presents.purge_iff (presents : Presents server platform options request type token next)
    (lone : ∀ record, cfg.shared.store.findByToken token type = some record →
      record.expiresAt.before cfg.clock = true → ∀ response,
      (authSystem server platform options).result (later (purged cfg) delay) schedule request ≠ .ok response)
    (response : Response) :
    (authSystem server platform options).result (later (purged cfg) delay) schedule request = .ok response ↔
      (authSystem server platform options).result (later cfg delay) schedule request = .ok response := by
  cases found : cfg.shared.store.findByToken token type with
  | none =>
    have still : (later (purged cfg) delay).shared.store.findByToken token type = none :=
      findByToken_deleteRecords_none found
    have missing : (later cfg delay).shared.store.findByToken token type = none := found
    exact iff_of_false (presents.fails_of_missing still response) (presents.fails_of_missing missing response)
  | some record =>
    cases past : record.expiresAt.before cfg.clock with
    | false => rw [presents.result_of_kept found past]
    | true =>
      have present : (later cfg delay).shared.store.findByToken token type = some record := found
      exact iff_of_false (lone record found past response) (presents.fails_of_expired present
        (Date.before_of_le (Nat.le_add_right _ _) past) response)

theorem saveRecord_takesOnly {paid : Str} (userId : String) (type : TokenType) (token : Str) (ttlMs : Nat) :
    (saveRecord userId type token ttlMs).Only (Call.takesOnly paid) := by
  intro id expiry created
  exact .perform trivial

/-- A program that has failed does not end with a value. -/
theorem fails_ensures {α : Type} {error : Thrown} {p now drawn : Nat} {log : List LogEntry} :
    (Program.fail error : Service α).Ensures (answerCall server platform options) (fun _ => True) p
      (fun result _ _ _ => ∀ value, result ≠ .ok value) now drawn world log := by
  intro value same
  cases same

/-- Past the lifetime of the record the check of it fails. -/
theorem past_ensures {α β : Type} {error : Thrown} {rest : Service α} {last : α → Service β} {record : TokenRecord}
    {p now drawn : Nat} {log : List LogEntry} (past : record.expiresAt.before now = true) :
    ((Program.now.bind fun looked => if record.expiresAt.before looked = true then .fail error else rest).bind
      last).Ensures (answerCall server platform options) (fun _ => True) p
        (fun result _ _ _ => ∀ value, result ≠ .ok value) now drawn world log := by
  rw [Program.bind_assoc]
  refine .now ?_
  rw [if_pos past]
  exact fails_ensures

theorem presents_refresh (token : Str) :
    ∃ next, Presents server platform options (.refresh token) .refreshToken token next := by
  refine ⟨_, Program.bind_assoc .., fun record => .bind ?_ fun _ => trivial, ⟨_, rfl⟩,
    fun record p now drawn world log past => ?_⟩
  · dsimp only
    split
    · exact .bind (.perform trivial) fun _ => trivial
    refine .bind (fun now => trivial) fun now => ?_
    split
    · trivial
    refine .bind (.perform rfl) fun consumed => ?_
    split
    · exact .bind (.perform trivial) fun _ => trivial
    exact .bind (.perform trivial) fun payload => .bind (saveRecord_takesOnly _ _ _ _) fun _ => trivial
  · dsimp only
    split
    · exact fun _ _ _ _ => fails_ensures
    · exact past_ensures past

theorem presents_verifyMagicLink (token : Str) :
    ∃ next, Presents server platform options (.verifyMagicLink token) .magicLink token next := by
  refine ⟨_, Program.bind_assoc .., fun record => .bind ?_ fun _ => trivial, ⟨_, rfl⟩,
    fun record p now drawn world log past => ?_⟩
  · dsimp only
    split
    · trivial
    refine .bind (fun now => trivial) fun now => ?_
    split
    · trivial
    refine .bind (.perform rfl) fun consumed => ?_
    split
    · trivial
    exact .bind (.perform trivial) fun tokens => .bind (saveRecord_takesOnly _ _ _ _) fun _ => trivial
  · dsimp only
    split
    · exact fails_ensures
    · exact past_ensures past

theorem presents_complete2FA (token : Str) (code : String) :
    ∃ next, Presents server platform options (.complete2FA token code) .preAuth2FA token next := by
  refine ⟨_, Program.bind_assoc .., fun record => .bind ?_ fun _ => trivial, ⟨_, rfl⟩,
    fun record p now drawn world log past => ?_⟩
  · dsimp only [Option.filter]
    split
    · trivial
    · rename_i found
      obtain rfl : record = _ := by
        split at found
        · exact Option.some.inj found
        · cases found
      refine .bind (fun now => trivial) fun now => ?_
      split
      · trivial
      refine .bind (.perform trivial) fun valid => ?_
      split
      · trivial
      refine .bind (.perform rfl) fun consumed => ?_
      split
      · trivial
      refine .bind (.perform trivial) fun user => .bind (.perform trivial) fun tokens => ?_
      exact .bind (saveRecord_takesOnly _ _ _ _) fun _ => trivial
  · cases used : record.consumedAt.isNone with
    | false =>
      simp only [Option.filter, used]
      exact fails_ensures
    | true =>
      simp only [Option.filter, used]
      exact past_ensures past

theorem presents_resetPassword {newPassword value : String} (strong : Password.create newPassword = .ok value)
    (token : Str) : ∃ next, Presents server platform options (.resetPassword token newPassword) .resetPassword token
      next := by
  refine ⟨?_, ?_, fun record => ?_, ?_, fun record p now drawn world log past => ?_⟩
  rotate_left
  · simp only [Request.body, ResetPasswordUseCase.execute, strong, Program.ofExcept_ok, Program.bind_eq,
      Program.done_bind]
    exact Program.bind_assoc ..
  · refine .bind ?_ fun _ => trivial
    dsimp only
    split
    · trivial
    refine .bind (fun now => trivial) fun now => ?_
    split
    · trivial
    refine .bind (.perform rfl) fun consumed => ?_
    split
    · trivial
    exact .bind (.perform trivial) fun _ => .bind (.perform trivial) fun _ => trivial
  · exact ⟨_, rfl⟩
  · dsimp only
    split
    · exact fails_ensures
    · exact past_ensures past

variable (server platform options) in
/-- The requests that present a token and get as far as looking it up. -/
theorem presents (request : Request) {type : TokenType} {token : Str}
    (presented : request.credential = some (type, token)) :
    (∃ next, Presents server platform options request type token next) ∨
      ∃ error, request.body platform options = .fail error := by
  cases request with
  | refresh t =>
    cases presented
    exact .inl (presents_refresh token)
  | verifyMagicLink t =>
    cases presented
    exact .inl (presents_verifyMagicLink token)
  | complete2FA t code =>
    cases presented
    exact .inl (presents_complete2FA token code)
  | resetPassword t newPassword =>
    cases presented
    cases strong : Password.create newPassword with
    | ok value => exact .inl (presents_resetPassword strong token)
    | error error =>
      refine .inr ⟨error, ?_⟩
      simp only [Request.body, ResetPasswordUseCase.execute, strong, Program.ofExcept_error, Program.bind_eq,
        Program.fail_bind]
  | _ => cases presented

variable {permitted : AuthConfig κ → AuthEvent κ → Prop} {clock : Nat} {keycloak : κ}

/-- No second record comes to light for a token that has been drawn. -/
theorem reach_purged_none
    (reach : (authSystem server platform options).Reach permitted (.start clock (.fresh keycloak)) cfg)
    (found : cfg.shared.store.findByToken token type = some record)
    (past : record.expiresAt.before cfg.clock = true)
    (drawn : type ≠ .refreshToken) : (later (purged cfg) delay).shared.store.findByToken token type = none := by
  refine Option.eq_none_iff_forall_ne_some.mpr fun other still => ?_
  obtain ⟨onFile, hashed, typed⟩ := findByToken_spec found
  obtain ⟨kept, hashed', typed'⟩ := findByToken_spec still
  have kept : other ∈ (cfg.shared.store.deleteExpired cfg.clock).records := kept
  rw [deleteExpired, deleteRecords_records, List.mem_filter] at kept
  obtain rfl := reach_records_eq reach onFile kept.1 (typed ▸ drawn) (typed'.trans typed.symm)
    (hashed.trans hashed'.symm)
  simp [past] at kept

/-- A refresh token whose record is past its lifetime has expired itself, whichever record stands for it. -/
theorem reach_refresh_refused
    (reach : (authSystem server platform options).Reach permitted (.start clock (.fresh keycloak)) cfg)
    (found : cfg.shared.store.findByToken token .refreshToken = some record)
    (past : record.expiresAt.before cfg.clock = true) {ready : AuthConfig κ} (since : cfg.clock ≤ ready.clock)
    (response : Response) :
    (authSystem server platform options).result ready schedule (.refresh token) ≠ .ok response := by
  intro answered
  obtain ⟨user, issuedAt, signed, named, known, lives⟩ := reach_found_session reach found
  have run := (serve_refresh server platform options (fun _ => True) token ready schedule fun _ => trivial).1
  rw [answered] at run
  generalize ((authSystem server platform options).serve ready schedule
    (.refresh token)).shared.store = after at run
  cases run with
  | @rotated _ _ _ _ asked _ _ _ _ _ arrived _ rotated =>
    obtain ⟨payload, _, valid, _⟩ := answerAuth_refreshToken_ok rotated
    obtain ⟨made, _, _, alive⟩ := refreshClaims_ok valid
    cases made.symm.trans signed
    have early := alive _ rfl
    have order : cfg.clock / 1000 ≤ asked / 1000 := Nat.div_le_div_right (since.trans arrived)
    cases (lives cfg.clock (by omega)).symm.trans past

/-- A purge of the expired records changes no redemption that follows it, early or late. -/
theorem purge_invisible
    (reach : (authSystem server platform options).Reach permitted (.start clock (.fresh keycloak)) cfg)
    (redeems : request.credential.isSome = true) (delay : Nat) (schedule : Schedule Plan) (response : Response) :
    (authSystem server platform options).result (later (purged cfg) delay) schedule request = .ok response ↔
      (authSystem server platform options).result (later cfg delay) schedule request = .ok response := by
  obtain ⟨⟨type, token⟩, presented⟩ := Option.isSome_iff_exists.mp redeems
  rcases presents server platform options request presented with ⟨next, presents⟩ | ⟨error, refused⟩
  · refine presents.purge_iff (fun record found past response => ?_) response
    by_cases drawn : type = .refreshToken
    · subst drawn
      obtain rfl := Request.refresh_of_credential presented
      exact reach_refresh_refused reach found past (Nat.le_add_right _ _) response
    · exact presents.fails_of_missing (reach_purged_none reach found past drawn) response
  · have fails (ready : AuthConfig κ) : (authSystem server platform options).result ready schedule request =
        .error error := congrArg (fun body : Service Response =>
          (body.drive (KeycloakAuth.answerCall server platform
      options) ready.threads.length schedule ready.clock 0 ready.shared ready.log).result) refused
    rw [fails, fails]

end

end

namespace Sample

/-- Ann has logged in twice within a second, so that two records stand for one refresh token, and has had a link
sent to her that has expired by now. -/
def linkLapsed : AuthConfig Realm :=
  let twice := system.serve loggedIn promptly (.login "ann@mail" "ann password")
  later (system.serve twice promptly (.sendMagicLink "ann@mail")) 1200000

theorem linkLapsed_reach : system.Reach anyEvent start linkLapsed := by
  have sent := (loggedIn_reach.trans (System.serve_reach _ promptly (.login "ann@mail" "ann password"))).trans
    (System.serve_reach _ promptly (.sendMagicLink "ann@mail"))
  exact sent.next (show anyEvent _ (.tick 1200000) from trivial) rfl

/-- The purge removes the record of the link. Half a second later her refresh token is accepted, as it would have
been without the purge. -/
theorem purge_invisible_linkLapsed :
    linkLapsed.shared.store.records.map TokenRecord.type = [.refreshToken, .refreshToken, .magicLink] ∧
    (purged linkLapsed).shared.store.records.map TokenRecord.type = [.refreshToken, .refreshToken] ∧
    ∃ tokens, system.result (later (purged linkLapsed) 500) promptly (.refresh (session ann 1000)) =
      .ok (.refresh tokens) :=
  ⟨rfl, rfl, _, (purge_invisible linkLapsed_reach rfl 500 promptly _).mpr rfl⟩

end Sample

end KeycloakAuth
