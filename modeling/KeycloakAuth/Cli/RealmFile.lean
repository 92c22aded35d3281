import KeycloakAuth.Cli.Commands
import KeycloakAuth.Js.Stringify

namespace KeycloakAuth.Cli
open Async Js

namespace Json

mutual

/-- A number is what `JSON.parse` makes of its literal. -/
def value : Json → Value
  | .null => .null
  | .bool value => .boolean value
  | .number literal => (parseJson (ofString literal)).getD .null
  | .str value => .string (ofString value)
  | .arr items => .array (values items)
  | .obj fields => .object (members fields)

def values : List Json → List Value
  | [] => []
  | item :: rest => item.value :: values rest

def members : List (String × Json) → List (Text × Value)
  | [] => []
  | (key, value) :: rest => (ofString key, value.value) :: members rest

end

section
variable (conversions : Conversions)

mutual

def ofValue : Value → Option Json
  | .undefined => none
  | .null => some .null
  | .boolean value => some (.bool value)
  | .number value => (string? (conversions.numberText value)).map .number
  | .string value => (string? value).map .str
  | .array items => (ofValues items).map .arr
  | .object members => (ofMembers members).map .obj

def ofValues : List Value → Option (List Json)
  | [] => some []
  | item :: rest => do return (← ofValue item) :: (← ofValues rest)

def ofMembers : List (Text × Value) → Option (List (String × Json))
  | [] => some []
  | (key, value) :: rest => do return (← string? key, ← ofValue value) :: (← ofMembers rest)

end

mutual

/-- All numbers are written as `JSON.stringify` writes them, so that none changes on its way through a file. -/
def Plain : Json → Prop
  | .number literal => ∃ value, parseJson (ofString literal) = some (.number (.finite value)) ∧
      conversions.numberText (.finite value) = ofString literal ∧ Legible conversions value
  | .arr items => AllPlain items
  | .obj fields => FieldsPlain fields
  | _ => True

def AllPlain : List Json → Prop
  | [] => True
  | item :: rest => item.Plain ∧ AllPlain rest

def FieldsPlain : List (String × Json) → Prop
  | [] => True
  | (_, value) :: rest => value.Plain ∧ FieldsPlain rest

end

end

end Json

/-- A member that holds a string, or nothing where there is none. -/
def stringMember (name : String) (value : Value) : Option (Option String) :=
  match value.member (ofString name) with
  | some .undefined => some none
  | some (.string text) => (string? text).map some
  | _ => none

section
variable (conversions : Conversions)

/-- The members other than those with a name of their own. -/
def settingsOf (named : List String) (members : List (Text × Value)) : Option Settings :=
  (members.filter fun member => !(named.map ofString).contains member.1).foldlM (fun settings member => do
    return settings.set (← string? member.1) (← Json.ofValue conversions member.2)) .empty

namespace ClientConfig

def named : List String := ["clientId", "secret"]

def value (config : ClientConfig) : Value :=
  .object ((ofString "clientId", .string (ofString config.clientId)) ::
    (config.secret.elim [] fun secret => [(ofString "secret", .string (ofString secret))]) ++
      Json.members config.settings.entries)

def ofValue (value : Value) : Option ClientConfig :=
  match value with
  | .object members => do
    let clientId ← ← stringMember "clientId" value
    let secret ← stringMember "secret" value
    return ⟨clientId, secret, ← settingsOf conversions named members⟩
  | _ => none

end ClientConfig

namespace RealmConfig

def named : List String := ["realm", "clients"]

def value (config : RealmConfig) : Value :=
  .object ((ofString "realm", .string (ofString config.realm)) :: Json.members config.settings.entries ++
    config.clients.elim [] fun clients => [(ofString "clients", .array (clients.map ClientConfig.value))])

def ofValue (value : Value) : Option RealmConfig :=
  match value with
  | .object members => do
    let realm ← ← stringMember "realm" value
    let clients ← match value.member (ofString "clients") with
      | some .undefined => some none
      | some .null => some none
      | some (.array items) => (items.mapM (ClientConfig.ofValue conversions)).map some
      | _ => none
    return ⟨realm, clients, ← settingsOf conversions named members⟩
  | _ => none

end RealmConfig

/-- `writeFileSync(path, JSON.stringify(config, null, 2), "utf-8")`. -/
def fileBytes (config : RealmConfig) : List Nat := utf8 ((config.value.stringify conversions 2).getD [])

/-- `JSON.parse(readFileSync(path, "utf-8"))`, of a file that has the form of a realm file. -/
def readBytes (bytes : List Nat) : Option RealmConfig := (parseFile bytes).bind (RealmConfig.ofValue conversions)

end

namespace Json
variable {conversions : Conversions}

theorem fieldsPlain_iff {fields : List (String × Json)} :
    FieldsPlain conversions fields ↔ ∀ field ∈ fields, field.2.Plain conversions := by
  induction fields with
  | nil => simp [FieldsPlain]
  | cons field rest ih => simp [FieldsPlain, ih]

mutual

theorem ofValue_value : (json : Json) → json.Plain conversions → ofValue conversions json.value = some json
  | .null, _ => rfl
  | .bool _, _ => rfl
  | .number literal, ⟨read, parsed, written, _⟩ => by
    rw [value, parsed, Option.getD_some, ofValue, written, string?_ofString, Option.map_some]
  | .str value, _ => by rw [Json.value, ofValue, string?_ofString, Option.map_some]
  | .arr items, plain => by rw [value, ofValue, ofValues_values items plain, Option.map_some]
  | .obj fields, plain => by rw [value, ofValue, ofMembers_members fields plain, Option.map_some]

theorem ofValues_values : (items : List Json) → AllPlain conversions items →
    ofValues conversions (values items) = some items
  | [], _ => rfl
  | item :: rest, plain => by
    rw [values, ofValues, ofValue_value item plain.1, ofValues_values rest plain.2]
    rfl

theorem ofMembers_members : (fields : List (String × Json)) → FieldsPlain conversions fields →
    ofMembers conversions (members fields) = some fields
  | [], _ => rfl
  | (key, value) :: rest, plain => by
    rw [members, ofMembers, string?_ofString, ofValue_value value plain.1, ofMembers_members rest plain.2]
    rfl

end

mutual

theorem stored_value : (json : Json) → json.Plain conversions → json.value.Stored conversions
  | .null, _ => .null
  | .bool value, _ => .boolean value
  | .number literal, ⟨read, parsed, _, legible⟩ => by
    rw [value, parsed]
    exact .number legible
  | .str value, _ => .string _
  | .arr items, plain => .array (stored_values items plain)
  | .obj fields, plain => .object (stored_members fields plain)

theorem stored_values : (items : List Json) → AllPlain conversions items →
    ∀ item ∈ values items, item.Stored conversions
  | [], _ => List.forall_mem_nil _
  | item :: rest, plain => List.forall_mem_cons.mpr ⟨stored_value item plain.1, stored_values rest plain.2⟩

theorem stored_members : (fields : List (String × Json)) → FieldsPlain conversions fields →
    ∀ member ∈ members fields, member.2.Stored conversions
  | [], _ => List.forall_mem_nil _
  | (_, value) :: rest, plain => List.forall_mem_cons.mpr ⟨stored_value value plain.1, stored_members rest plain.2⟩

end

theorem members_eq_map (fields : List (String × Json)) :
    members fields = fields.map fun field => (ofString field.1, field.2.value) := by
  induction fields with
  | nil => rfl
  | cons field rest ih => rw [members, ih, List.map_cons]

end Json

theorem member_object {members : List (Text × Value)} (nodup : (members.map Prod.fst).Nodup)
    {name : Text} {value : Value}
    (present : (name, value) ∈ members) : (Value.object members).member name = some value := by
  have found : (members.reverse.find? fun member => member.1 = name) = some (name, value) := by
    have nodup' : (members.reverse.map Prod.fst).Nodup := by
      rw [List.map_reverse]
      exact List.nodup_reverse.mpr nodup
    cases looked : members.reverse.find? fun member => member.1 = name with
    | none =>
      have apart := List.find?_eq_none.mp looked (name, value) (List.mem_reverse.mpr present)
      exact absurd (decide_eq_true rfl) apart
    | some other =>
      have same : other.1 = name := by simpa using List.find?_some looked
      rw [List.inj_on_of_nodup_map nodup' (List.mem_of_find?_eq_some looked) (List.mem_reverse.mpr present) same]
  rw [Value.member, found]
  rfl

theorem member_object_absent {members : List (Text × Value)} {name : Text} (absent : name ∉ members.map Prod.fst) :
    (Value.object members).member name = some .undefined := by
  have missing : (members.reverse.find? fun member => member.1 = name) = none := by
    refine List.find?_eq_none.mpr fun member inside same => absent ?_
    rw [← of_decide_eq_true same]
    exact List.mem_map_of_mem (List.mem_reverse.mp inside)
  rw [Value.member, missing]
  rfl

section
variable {conversions : Conversions}

/-- The entries of a map, set one after the other, make up the map. -/
theorem foldlM_settings {done rest : List (String × Json)} (nodup : ((done ++ rest).map Prod.fst).Nodup)
    (plain : Json.FieldsPlain conversions rest) (before : Settings) (same : before.entries = done) :
    ∃ after : Settings, after.entries = done ++ rest ∧
      (Json.members rest).foldlM (fun settings member => do
        return settings.set (← string? member.1) (← Json.ofValue conversions member.2)) before = some after := by
  induction rest generalizing done before with
  | nil => exact ⟨before, by rw [same, List.append_nil], rfl⟩
  | cons field rest ih =>
    obtain ⟨key, value⟩ := field
    have fresh : before.get key = none := by
      refine OrderedMap.get_eq_none.mpr fun there => ?_
      rw [same] at there
      rw [List.map_append, List.nodup_append] at nodup
      exact nodup.2.2 key there key List.mem_cons_self rfl
    have next : (before.set key value).entries = done ++ [(key, value)] := by
      rw [OrderedMap.set_entries_of_none value fresh, same]
    have whole : done ++ (key, value) :: rest = done ++ [(key, value)] ++ rest := by simp
    obtain ⟨after, entries, runs⟩ := ih (whole ▸ nodup) plain.2 (before.set key value) next
    refine ⟨after, by rw [entries, whole], ?_⟩
    rw [Json.members, List.foldlM_cons]
    simp only [string?_ofString, Json.ofValue_value value plain.1]
    exact runs

/-- No setting goes by one of those names. -/
def Settings.Apart (settings : Settings) (named : List String) : Prop := ∀ name ∈ named, settings.get name = none

/-- A member under a name that is written out. -/
def memberOf (member : String × Value) : Text × Value := (ofString member.1, member.2)

theorem memberOf_keys (members : List (String × Value)) :
    (members.map memberOf).map Prod.fst = (members.map Prod.fst).map ofString := by
  simp only [List.map_map]
  rfl

theorem settingsOf_members {settings : Settings} {named : List String} (apart : settings.Apart named)
    (plain : Json.FieldsPlain conversions settings.entries) {before after : List (String × Value)}
    (within : ∀ member ∈ before ++ after, member.1 ∈ named) : settingsOf conversions named
      (before.map memberOf ++ Json.members settings.entries ++ after.map memberOf) = some settings := by
  obtain ⟨firstBefore, firstAfter⟩ := List.forall_mem_append.mp within
  have isNamed {members : List (String × Value)} (inNamed : ∀ member ∈ members, member.1 ∈ named) :
      (members.map memberOf).filter (fun member => !(named.map ofString).contains member.1) = [] := by
    refine List.filter_eq_nil_iff.mpr fun member inside => ?_
    obtain ⟨field, there, rfl⟩ := List.mem_map.mp inside
    have name : ofString field.1 ∈ named.map ofString := List.mem_map_of_mem (inNamed field there)
    simpa [memberOf] using name
  have own : (Json.members settings.entries).filter (fun member => !(named.map ofString).contains member.1) =
      Json.members settings.entries := by
    refine List.filter_eq_self.mpr fun member inside => ?_
    rw [Json.members_eq_map] at inside
    obtain ⟨field, there, rfl⟩ := List.mem_map.mp inside
    have other : ofString field.1 ∉ named.map ofString := by
      intro isNamed
      obtain ⟨name, inNamed, same⟩ := List.mem_map.mp isNamed
      obtain rfl := ofString_injective same
      exact OrderedMap.get_eq_none.mp (apart _ inNamed) (List.mem_map_of_mem there)
    simpa using other
  obtain ⟨read, entries, runs⟩ := foldlM_settings (by exact settings.nodup) plain .empty rfl
  rw [settingsOf, List.filter_append, List.filter_append, isNamed firstBefore,
    isNamed firstAfter, own, List.nil_append,
    List.append_nil, runs]
  exact congrArg some (OrderedMap.eq_of_entries entries)

theorem nodup_keys {settings : Settings} {named : List String} (apart : settings.Apart named)
    {before after : List (String × Value)} (nodup : ((before ++ after).map Prod.fst).Nodup)
    (within : ∀ member ∈ before ++ after, member.1 ∈ named) :
    ((before.map memberOf ++ Json.members settings.entries ++ after.map memberOf).map Prod.fst).Nodup := by
  have keys : (before.map memberOf ++ Json.members settings.entries ++ after.map memberOf).map Prod.fst =
      (before.map Prod.fst ++ (settings.entries.map Prod.fst ++ after.map Prod.fst)).map ofString := by
    simp only [List.map_append, Json.members_eq_map, List.append_assoc, List.map_map]
    rfl
  have absent : ∀ member ∈ before ++ after, member.1 ∉ settings.entries.map Prod.fst := fun member inside =>
    OrderedMap.get_eq_none.mp (apart _ (within member inside))
  obtain ⟨absentBefore, absentAfter⟩ := List.forall_mem_append.mp absent
  rw [keys]
  rw [List.map_append, List.nodup_append] at nodup
  obtain ⟨nodupBefore, nodupAfter, cross⟩ := nodup
  refine List.Nodup.map ofString_injective
    (List.nodup_append.mpr ⟨nodupBefore, List.nodup_append.mpr ⟨settings.nodup, nodupAfter, ?_⟩, ?_⟩)
  · rintro key inSettings other inAfter rfl
    obtain ⟨member, there, same⟩ := List.mem_map.mp inAfter
    exact absentAfter member there (same ▸ inSettings)
  · rintro key inBefore other inside rfl
    rcases List.mem_append.mp inside with inSettings | inAfter
    · obtain ⟨member, there, same⟩ := List.mem_map.mp inBefore
      exact absentBefore member there (same ▸ inSettings)
    · exact cross key inBefore key inAfter rfl

section
variable {settings : Settings} {named : List String} {before after : List (String × Value)}

theorem member_named (apart : settings.Apart named) (nodup : ((before ++ after).map Prod.fst).Nodup)
    (within : ∀ member ∈ before ++ after, member.1 ∈ named) {name : String} {value : Value}
    (present : (name, value) ∈ before ++ after) :
    (Value.object (before.map memberOf ++ Json.members settings.entries ++ after.map
      memberOf)).member (ofString name) =
      some value := by
  refine member_object (nodup_keys apart nodup within) ?_
  rcases List.mem_append.mp present with first | last
  · exact List.mem_append_left _ (List.mem_append_left _ (List.mem_map_of_mem first))
  · exact List.mem_append_right _ (List.mem_map_of_mem last)

theorem member_not_named (apart : settings.Apart named) {name : String} (inNamed : name ∈ named)
    (absent : name ∉ (before ++ after).map Prod.fst) :
    (Value.object (before.map memberOf ++ Json.members settings.entries ++ after.map
      memberOf)).member (ofString name) =
      some .undefined := by
  refine member_object_absent fun inside => ?_
  rw [List.map_append, List.map_append, memberOf_keys, memberOf_keys] at inside
  have noSetting := OrderedMap.get_eq_none.mp (apart name inNamed)
  rw [List.map_append, List.mem_append, not_or] at absent
  rcases List.mem_append.mp inside with earlier | last
  · rcases List.mem_append.mp earlier with first | setting
    · exact absent.1 ((List.mem_map_of_injective ofString_injective).mp first)
    · rw [Json.members_eq_map, List.map_map] at setting
      obtain ⟨field, there, same⟩ := List.mem_map.mp setting
      exact noSetting (ofString_injective same ▸ List.mem_map_of_mem there)
  · exact absent.2 ((List.mem_map_of_injective ofString_injective).mp last)

end

def Settings.Plain (conversions : Conversions) (settings : Settings) : Prop :=
  ∀ key value, settings.get key = some value → value.Plain conversions

theorem Settings.Plain.entries {settings : Settings} (plain : settings.Plain conversions) :
    Json.FieldsPlain conversions settings.entries :=
  Json.fieldsPlain_iff.mpr fun field member => plain field.1 field.2 (OrderedMap.get_eq_some.mpr member)

/-- A client that can be written to a file and read again. -/
structure ClientConfig.Writable (conversions : Conversions) (config : ClientConfig) : Prop where
  plain : config.settings.Plain conversions
  apart : config.settings.Apart ClientConfig.named

theorem stringMember_some {value : Value} {name text : String}
    (member : value.member (ofString name) = some (.string (ofString text))) :
      stringMember name value = some (some text) := by
  rw [stringMember, member]
  simp only [string?_ofString, Option.map_some]

theorem stringMember_none {value : Value} {name : String}
    (member : value.member (ofString name) = some .undefined) :
    stringMember name value = some none := by
  rw [stringMember, member]

theorem ClientConfig.ofValue_value {config : ClientConfig} (writable : config.Writable conversions) :
    ClientConfig.ofValue conversions config.value = some config := by
  obtain ⟨clientId, secret, settings⟩ := config
  have apart : settings.Apart ClientConfig.named := writable.apart
  let before : List (String × Value) := ("clientId", .string (ofString clientId)) ::
    secret.elim [] fun secret => [("secret", .string (ofString secret))]
  have shape : ClientConfig.value ⟨clientId, secret, settings⟩ =
      .object (before.map memberOf ++ Json.members settings.entries ++ ([] : List
        (String × Value)).map memberOf) := by
    cases secret <;> simp [ClientConfig.value, before, memberOf]
  have nodup : ((before ++ []).map Prod.fst).Nodup := by cases secret <;> simp [before]
  have within : ∀ member ∈ before ++ [], member.1 ∈ ClientConfig.named := by
    cases secret <;> simp [before, ClientConfig.named]
  have id := stringMember_some (member_named apart nodup within
    (show ("clientId", Value.string (ofString clientId)) ∈ before ++ [] from List.mem_cons_self))
  have read := settingsOf_members apart writable.plain.entries within
  have secretRead : stringMember "secret"
      (.object (before.map memberOf ++ Json.members settings.entries ++ ([] : List
        (String × Value)).map memberOf)) =
        some secret := by
    cases secret with
    | none => exact stringMember_none (member_not_named apart (by decide) (by simp [before]))
    | some secret => exact stringMember_some (member_named apart nodup within (by simp [before]))
  rw [shape, ClientConfig.ofValue, id, secretRead]
  simp only [read]
  rfl

structure RealmConfig.Writable (conversions : Conversions) (config : RealmConfig) : Prop where
  plain : config.settings.Plain conversions
  apart : config.settings.Apart RealmConfig.named
  clients : ∀ client ∈ config.clients.getD [], client.Writable conversions

theorem RealmConfig.ofValue_value {config : RealmConfig} (writable : config.Writable conversions) :
    RealmConfig.ofValue conversions config.value = some config := by
  obtain ⟨realm, clients, settings⟩ := config
  have apart : settings.Apart RealmConfig.named := writable.apart
  let before : List (String × Value) := [("realm", .string (ofString realm))]
  let after : List (String × Value) := clients.elim [] fun clients =>
    [("clients", .array (clients.map ClientConfig.value))]
  have shape : RealmConfig.value ⟨realm, clients, settings⟩ =
      .object (before.map memberOf ++ Json.members settings.entries ++ after.map memberOf) := by
    cases clients <;> simp [RealmConfig.value, before, after, memberOf]
  have nodup : ((before ++ after).map Prod.fst).Nodup := by cases clients <;> simp [before, after]
  have within : ∀ member ∈ before ++ after, member.1 ∈ RealmConfig.named := by
    cases clients <;> simp [before, after, RealmConfig.named]
  have name := stringMember_some (member_named apart nodup within
    (show ("realm", Value.string (ofString realm)) ∈ before ++ after from List.mem_cons_self))
  have read := settingsOf_members apart writable.plain.entries within
  rw [shape, RealmConfig.ofValue, name]
  cases clients with
  | none =>
    have none := member_not_named apart (by decide) (show "clients" ∉ (before ++ after).map
      Prod.fst by simp [before, after])
    simp only [none, read]
    rfl
  | some listed =>
    have some := member_named apart nodup within
      (show ("clients", Value.array (listed.map ClientConfig.value)) ∈ before ++ after by simp [before, after])
    have each : (listed.map ClientConfig.value).mapM (ClientConfig.ofValue conversions) = .some listed := by
      have all : ∀ client ∈ listed, client.Writable conversions := writable.clients
      clear * - all
      induction listed with
      | nil => rfl
      | cons client rest ih =>
        obtain ⟨own, others⟩ := List.forall_mem_cons.mp all
        rw [List.map_cons, List.mapM_cons, ClientConfig.ofValue_value own, ih others]
        rfl
    simp only [some, read, each]
    rfl

theorem stored_settings {settings : Settings} (plain : settings.Plain conversions) :
    ∀ member ∈ Json.members settings.entries, member.2.Stored conversions :=
  Json.stored_members settings.entries plain.entries

theorem RealmConfig.stored_value {config : RealmConfig} (writable : config.Writable conversions) :
    config.value.Stored conversions := by
  refine .object (List.forall_mem_append.mpr ⟨List.forall_mem_cons.mpr ⟨.string _,
    stored_settings writable.plain⟩, ?_⟩)
  have all := writable.clients
  cases listed : config.clients with
  | none => exact List.forall_mem_nil _
  | some clients =>
    rw [listed] at all
    refine List.forall_mem_singleton.mpr (.array fun item inside => ?_)
    obtain ⟨client, there, rfl⟩ := List.mem_map.mp inside
    refine .object (List.forall_mem_append.mpr ⟨List.forall_mem_cons.mpr ⟨.string _, ?_⟩,
      stored_settings (all client there).plain⟩)
    cases client.secret with
    | none => exact List.forall_mem_nil _
    | some secret => exact List.forall_mem_singleton.mpr (.string _)

/-- A realm file that is written is read as it was. -/
theorem readBytes_fileBytes {config : RealmConfig} (writable : config.Writable conversions) :
    readBytes conversions (fileBytes conversions config) = some config := by
  rw [readBytes, fileBytes, (RealmConfig.stored_value writable).parseFile, Option.bind_some,
    RealmConfig.ofValue_value writable]

end

end KeycloakAuth.Cli
