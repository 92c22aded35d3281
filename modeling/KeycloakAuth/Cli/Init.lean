import KeycloakAuth.Cli.Disk
import KeycloakAuth.Login

namespace KeycloakAuth.Cli
open Async Js

/-- What is typed at the prompts. -/
structure InitAnswers where
  realm : String
  serverUrl : String
  adminUser : String
  adminPassword : String
  clientId : String
  secret : String
  redirectUris : String
  smtpHost : String
  smtpPort : String
  fromEmail : String

/-- `answer.trim() || fallback`. -/
def answered (answer fallback : String) : String := if trim answer = "" then fallback else trim answer

/-- `parseInt(text, 10)`, of a text without blanks before it. -/
def parseInt (text : String) : Number :=
  let (sign, rest) : ℚ × List Char :=
    match text.toList with
    | '-' :: rest => (-1, rest)
    | '+' :: rest => (1, rest)
    | rest => (1, rest)
  let digits := rest.takeWhile Char.isDigit
  if digits.isEmpty then .nan
  else .ofExact (sign * (digits.foldl (fun n c => n * 10 + (c.toNat - 48)) 0 : Nat))

def hexChar (d : Nat) : Char := if d < 10 then Char.ofNat (48 + d) else Char.ofNat (87 + d)

/-- `randomBytes(20).toString("hex")`. -/
def generateSecret (randomBytes : List (Fin 256)) : String :=
  String.ofList (randomBytes.flatMap fun byte => [hexChar (byte.val / 16), hexChar (byte.val % 16)])

namespace InitAnswers
variable (answers : InitAnswers) (randomBytes : List (Fin 256))

def generatedSecret : String := answered answers.secret (generateSecret randomBytes)

def redirects : List String := (answers.redirectUris.toList.splitOn ',').map fun part => trim (String.ofList part)

def port : Number := parseInt (answered answers.smtpPort "1025")

/-- The members of the only client, in the order in which they are written. -/
def client : List (String × Value) :=
  [("clientId", .string (ofString answers.clientId)),
    ("secret", .string (ofString (answers.generatedSecret randomBytes))),
    ("publicClient", .boolean false),
    ("redirectUris", .array (answers.redirects.map fun uri => .string (ofString uri))),
    ("directAccessGrantsEnabled", .boolean true),
    ("serviceAccountsEnabled", .boolean true),
    ("standardFlowEnabled", .boolean true)]

def smtp (port : Value) : List (String × Value) :=
  [("host", .string (ofString (answered answers.smtpHost "localhost"))),
    ("port", port),
    ("fromEmail", .string (ofString (answered answers.fromEmail "noreply@example.com")))]

def members (port : Value) : List (String × Value) :=
  [("realm", .string (ofString answers.realm)),
    ("serverUrl", .string (ofString (answered answers.serverUrl "http://localhost:8080"))),
    ("adminUser", .string (ofString (answered answers.adminUser "admin"))),
    ("adminPassword", .string (ofString (answered answers.adminPassword "admin"))),
    ("enabled", .boolean true),
    ("clients", .array [.object ((answers.client randomBytes).map memberOf)]),
    ("smtp", .object ((answers.smtp port).map memberOf))]

def config : Value := .object ((answers.members randomBytes (.number answers.port)).map memberOf)

end InitAnswers

/-- The bytes that `initCommand` writes. -/
def initFile (conversions : Conversions) (answers : InitAnswers) (randomBytes : List (Fin 256)) : List Nat :=
  utf8 (((answers.config randomBytes).stringify conversions 2).getD [])

def initCommand (conversions : Conversions) (outputPath : String) (answers : InitAnswers)
    (randomBytes : List (Fin 256))
    (disk : Disk) : Disk :=
  { disk with files := disk.files.set outputPath (initFile conversions answers randomBytes) }

section
variable {conversions : Conversions}

theorem member_of_nodup {members : List (String × Value)} (nodup : (members.map Prod.fst).Nodup) {name : String}
    {value : Value} (present : (name, value) ∈ members) :
    (Value.object (members.map memberOf)).member (ofString name) = some value := by
  refine member_object ?_ (List.mem_map_of_mem present)
  rw [memberOf_keys]
  exact nodup.map ofString_injective

theorem contains_memberOf (named : List String) (member : String × Value) :
    (named.map ofString).contains (memberOf member).1 = decide (member.1 ∈ named) := by
  rw [Bool.eq_iff_iff, List.contains_iff_mem, decide_eq_true_eq]
  exact List.mem_map_of_injective ofString_injective

/-- Settings can be read when each of them can. -/
theorem settingsOf_some {named : List String} {members : List (String × Value)}
    (each : ∀ member ∈ members, member.1 ∉ named → ∃ json, Json.ofValue conversions member.2 = some json) :
    ∃ settings, settingsOf conversions named (members.map memberOf) = some settings := by
  unfold settingsOf
  generalize (OrderedMap.empty : Settings) = before
  induction members generalizing before with
  | nil => exact ⟨before, rfl⟩
  | cons member rest ih =>
    obtain ⟨own, others⟩ := List.forall_mem_cons.mp each
    rw [List.map_cons, List.filter_cons, contains_memberOf]
    by_cases isNamed : member.1 ∈ named
    · rw [if_neg (by simp [isNamed])]
      exact ih others before
    · obtain ⟨json, read⟩ := own isNamed
      rw [if_pos (by simp [isNamed]), List.foldlM_cons]
      simp only [memberOf, string?_ofString, read]
      exact ih others _

/-- A finite number that is legible can be read, and any other one has left `null`. -/
theorem ofValue_plain_number {number : Number} (legible : ∀ value,
    number = .finite value → Legible conversions value) :
    ∃ json, Json.ofValue conversions (Value.number number).plain = some json := by
  cases number with
  | finite value =>
    obtain ⟨read, same⟩ := (legible value rfl).1.string?
    exact ⟨.number read, by rw [Value.plain, Json.ofValue, same, Option.map_some]⟩
  | nan => exact ⟨.null, rfl⟩
  | infinity negative => exact ⟨.null, rfl⟩

section
variable {answers : InitAnswers} {randomBytes : List (Fin 256)}

theorem plainItems_strings (texts : List String) : Value.plainItems
    (texts.map fun text => .string (ofString text)) =
    texts.map fun text => .string (ofString text) := by
  induction texts with
  | nil => rfl
  | cons text rest ih => simp only [List.map_cons, Value.plainItems, Value.plain, ih]

theorem numbersOfItems_strings (texts : List String) :
    Value.numbersOfItems (texts.map fun text => .string (ofString text)) = [] := by
  induction texts with
  | nil => rfl
  | cons text rest ih => simp only [List.map_cons, Value.numbersOfItems, Value.numbers, ih, List.append_nil]

/-- Only the port may change on its way through the file. -/
theorem InitAnswers.plain_config : (answers.config randomBytes).plain =
    .object ((answers.members randomBytes (Value.number answers.port).plain).map memberOf) := by
  cases port : answers.port <;>
    simp only [config, members, client, smtp, port, memberOf, List.map_cons, List.map_nil,
      Value.plain, Value.plainMembers,
      Value.plainItems, plainItems_strings]

theorem InitAnswers.numbers_config : (answers.config randomBytes).numbers =
    (Value.number answers.port).numbers := by
  cases port : answers.port <;>
    simp only [config, members, client, smtp, port, memberOf, List.map_cons, List.map_nil, Value.numbers,
      Value.numbersOfMembers, Value.numbersOfItems, numbersOfItems_strings, List.append_nil, List.nil_append]

theorem ofValue_string (text : String) : Json.ofValue conversions (.string (ofString text)) = some (.str text) := by
  rw [Json.ofValue, string?_ofString, Option.map_some]

theorem ofValues_strings (texts : List String) : Json.ofValues conversions
    (texts.map fun text => .string (ofString text)) =
    some (texts.map .str) := by
  induction texts with
  | nil => rfl
  | cons text rest ih =>
    rw [List.map_cons, Json.ofValues, ofValue_string, ih]
    rfl

theorem ofMembers_some {members : List (String × Value)}
    (each : ∀ member ∈ members, ∃ json, Json.ofValue conversions member.2 = some json) :
    ∃ fields, Json.ofMembers conversions (members.map memberOf) = some fields := by
  induction members with
  | nil => exact ⟨[], rfl⟩
  | cons member rest ih =>
    obtain ⟨⟨json, own⟩, others⟩ := List.forall_mem_cons.mp each
    obtain ⟨fields, same⟩ := ih others
    refine ⟨(member.1, json) :: fields, ?_⟩
    rw [List.map_cons, memberOf, Json.ofMembers, string?_ofString, own, same]
    rfl

theorem ofValue_client (answers : InitAnswers) (randomBytes : List (Fin 256)) : ∃ settings,
    ClientConfig.ofValue conversions (.object ((answers.client randomBytes).map memberOf)) =
      some ⟨answers.clientId, some (answers.generatedSecret randomBytes), settings⟩ := by
  have nodup : ((answers.client randomBytes).map Prod.fst).Nodup := by simp [InitAnswers.client]
  have id := stringMember_some (member_of_nodup nodup
    (show ("clientId", Value.string (ofString answers.clientId)) ∈ answers.client
      randomBytes by simp [InitAnswers.client]))
  have secret := stringMember_some (member_of_nodup nodup
    (show ("secret", Value.string (ofString (answers.generatedSecret randomBytes))) ∈ answers.client randomBytes by
      simp [InitAnswers.client]))
  obtain ⟨settings, read⟩ := @settingsOf_some conversions ClientConfig.named (answers.client randomBytes) (by
    simp only [InitAnswers.client, List.forall_mem_cons]
    exact ⟨fun _ => ⟨_, ofValue_string _⟩, fun _ => ⟨_, ofValue_string _⟩, fun _ => ⟨_, rfl⟩,
      fun _ => ⟨.arr _, by rw [Json.ofValue, ofValues_strings, Option.map_some]⟩,
        fun _ => ⟨_, rfl⟩, fun _ => ⟨_, rfl⟩,
      fun _ => ⟨_, rfl⟩, List.forall_mem_nil _⟩)
  refine ⟨settings, ?_⟩
  rw [ClientConfig.ofValue, id, secret]
  simp only [read]
  rfl

/-- The file is read as a realm file with one client. -/
theorem readBytes_initFile (legible : ∀ value, answers.port = .finite value → Legible conversions value) :
    ∃ settings redirects, readBytes conversions (initFile conversions answers randomBytes) = some
      ⟨answers.realm, some [⟨answers.clientId, some (answers.generatedSecret randomBytes),
        redirects⟩], settings⟩ := by
  have written : (answers.config randomBytes).stringify conversions 2 = some _ := rfl
  have numbers : ∀ number ∈ (answers.config randomBytes).numbers, Legible conversions number := by
    rw [InitAnswers.numbers_config]
    cases port : answers.port with
    | finite value => exact List.forall_mem_singleton.mpr (legible value port)
    | nan => exact List.forall_mem_nil _
    | infinity negative => exact List.forall_mem_nil _
  obtain ⟨port, portRead⟩ := ofValue_plain_number legible
  obtain ⟨redirects, client⟩ := @ofValue_client conversions answers randomBytes
  let kept := answers.members randomBytes (Value.number answers.port).plain
  have nodup : (kept.map Prod.fst).Nodup := by simp [kept, InitAnswers.members]
  have name := stringMember_some (member_of_nodup nodup
    (show ("realm", Value.string (ofString answers.realm)) ∈ kept by simp [kept, InitAnswers.members]))
  have clients := member_of_nodup nodup
    (show ("clients", Value.array [.object ((answers.client randomBytes).map memberOf)]) ∈ kept by
      simp [kept, InitAnswers.members])
  obtain ⟨smtp, smtpRead⟩ := @ofMembers_some conversions (answers.smtp (Value.number answers.port).plain) (by
    simp only [InitAnswers.smtp, List.forall_mem_cons]
    exact ⟨⟨_, ofValue_string _⟩, ⟨_, portRead⟩, ⟨_, ofValue_string _⟩, List.forall_mem_nil _⟩)
  obtain ⟨settings, read⟩ := @settingsOf_some conversions RealmConfig.named kept (by
    simp only [kept, InitAnswers.members, List.forall_mem_cons]
    refine ⟨fun _ => ⟨_, ofValue_string _⟩, fun _ => ⟨_, ofValue_string _⟩, fun _ => ⟨_, ofValue_string _⟩,
      fun _ => ⟨_, ofValue_string _⟩, fun _ => ⟨_, rfl⟩, fun other => absurd (by simp [RealmConfig.named]) other,
      fun _ => ⟨.obj smtp, by rw [Json.ofValue, smtpRead, Option.map_some]⟩, List.forall_mem_nil _⟩)
  have others : settingsOf conversions RealmConfig.named
      ((answers.members randomBytes (Value.number answers.port).plain).map memberOf) = some settings := read
  refine ⟨settings, redirects, ?_⟩
  rw [readBytes, initFile, written, Option.getD_some, parseFile_stringify numbers written, Option.bind_some,
    InitAnswers.plain_config, RealmConfig.ofValue, name, clients]
  simp only [others, List.mapM_cons, List.mapM_nil, client]
  rfl

end

end

/-- The application loads what has been typed: the realm and the client id as they are, and the secret without
the blanks around it, or a random one in its place. The server's address in the file has no part in it. -/
theorem init_then_load {conversions : Conversions} {unreadable : List Nat → Thrown} {setup : KcSetup}
    {answers : InitAnswers} (legible : ∀ value, answers.port = .finite value → Legible conversions value)
    (randomBytes : List (Fin 256)) (path : String) (env : Option String) (schedule : Schedule Failure) (now : Nat)
    (disk : Disk) : (runOnDisk conversions unreadable setup (loadKeycloakConfigFromPath path env) schedule now
      (initCommand conversions path answers randomBytes disk)).result =
        .ok ⟨env.getD "http://localhost:8080", answers.realm, answers.clientId,
          some (if trim answers.secret = "" then generateSecret randomBytes else trim answers.secret)⟩ := by
  obtain ⟨settings, redirects, read⟩ := @readBytes_initFile conversions answers randomBytes legible
  have file : (initCommand conversions path answers randomBytes disk).files.get path =
      some (initFile conversions answers randomBytes) := OrderedMap.get_set_self ..
  have served : answerDisk conversions unreadable setup (schedule 0).2 (now + (schedule 0).1) 0 (.readFile path)
      (initCommand conversions path answers randomBytes disk) =
        (.ok ⟨answers.realm, some [⟨answers.clientId, some (answers.generatedSecret randomBytes),
          redirects⟩], settings⟩,
          initCommand conversions path answers randomBytes disk) := by
    simp only [answerDisk, file, read]
  rw [runOnDisk, loadKeycloakConfigFromPath, Program.bind_eq, perform, Program.drive_perform_ok served]
  rfl

namespace Sample

def answers : InitAnswers := ⟨"app", "https://kc.example", "", "", "web", "  ",
    "http://localhost:3000/*, ", "", "", ""⟩

/-- A secret is drawn, and the port is the default one. -/
theorem init_then_load_answers : (runOnDisk KeycloakAuth.Sample.conversions (fun _ => .error "") setup
    (loadKeycloakConfigFromPath "keycloak-realm.json" none) quiet 5
    (initCommand KeycloakAuth.Sample.conversions "keycloak-realm.json" answers [0xAB,
      0x07] ⟨.empty, none, .empty⟩)).result =
      .ok ⟨"http://localhost:8080", "app", "web", some "ab07"⟩ := by
  have port : answers.port = .finite 1025 := by decide +kernel
  refine (init_then_load (fun value same => ?_) [0xAB, 0x07] _ _ _ _ _).trans (by decide)
  rw [port] at same
  cases same
  exact legible_natCast _ (by decide : 1025 < 2 ^ 53)

end Sample

end KeycloakAuth.Cli
