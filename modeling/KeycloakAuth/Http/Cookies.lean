import Mathlib.Data.List.Sort

namespace Http
variable {ν : Type}

/-- The host of a request, in lower case. -/
inductive Host
  | name (text : String)
  | address (text : String)
deriving DecidableEq, Repr

/-- Where a user agent sends its requests, always from the same site, and which domains it takes for public
suffixes. -/
structure Site where
  host : Host
  /-- The requests go over HTTPS. -/
  secure : Bool
  publicSuffix : String → Bool

/-- A `Set-Cookie` header. `maxAge` is in seconds, `expires` a point of time in milliseconds. -/
structure SetCookie (ν : Type) where
  name : String
  value : ν
  domain : Option String
  path : Option String
  maxAge : Option Nat
  expires : Option Nat
  secure : Bool
deriving DecidableEq, Repr

/-- A cookie after RFC 6265, as a user agent stores it. -/
structure Cookie (ν : Type) where
  name : String
  value : ν
  domain : String
  hostOnly : Bool
  path : String
  /-- A session cookie has none. -/
  expiryTime : Option Nat
  secure : Bool
deriving DecidableEq, Repr

/-- The cookies of a user agent, the oldest first. Expired ones are as good as evicted: they are never sent. -/
abbrev CookieStore (ν : Type) := List (Cookie ν)

namespace Host

def text : Host → String
  | .name text => text
  | .address text => text

/-- The domain is the host, or the host is a name below it. -/
def domainMatches (host : Host) (domain : String) : Bool :=
  host.text = domain || match host with
    | .name text => ('.' :: domain.toList).isSuffixOf text.toList
    | .address _ => false

end Host

/-- The domain of a cookie that a site sets with that `Domain` attribute, and whether the cookie is for the host
only. Cookies for other domains are ignored, and so are those for public suffixes. -/
def Site.scope (site : Site) (named : String) : Option (String × Bool) :=
  if named = "" ∨ site.publicSuffix named = true ∧ named = site.host.text then
    some (site.host.text, true)
  else if site.publicSuffix named = false ∧ site.host.domainMatches named = true then
    some (named, false)
  else none

/-- The directory of a request path. -/
def defaultPath (uriPath : String) : String :=
  let directory := (uriPath.toList.reverse.dropWhile (· ≠ '/')).tail.reverse
  if uriPath.toList.head? ≠ some '/' ∨ directory = [] then "/" else String.ofList directory

/-- The cookie path is the request path or one of its directories. -/
def pathMatches (requestPath cookiePath : String) : Bool :=
  requestPath = cookiePath || (cookiePath.toList.isPrefixOf requestPath.toList &&
    (cookiePath.toList.getLast? = some '/' || requestPath.toList[cookiePath.length]? = some '/'))

namespace SetCookie

/-- A leading dot of the domain counts for nothing, and neither does an empty domain. -/
def domainAttribute (header : SetCookie ν) : String :=
  let text := (header.domain.getD "").toList
  String.ofList ((if text.head? = some '.' then text.tail else text).map Char.toLower)

def cookiePath (header : SetCookie ν) (uriPath : String) : String :=
  match header.path with
  | some path => if path.toList.head? = some '/' then path else defaultPath uriPath
  | none => defaultPath uriPath

/-- `Max-Age` has precedence, and is counted from the response on. -/
def expiryTime (header : SetCookie ν) (now : Nat) : Option Nat :=
  match header.maxAge with
  | some seconds => some (if seconds = 0 then 0 else now + seconds * 1000)
  | none => header.expires

def cookie (header : SetCookie ν) (site : Site) (now : Nat) (uriPath : String) : Option (Cookie ν) :=
  (site.scope header.domainAttribute).map fun (domain, hostOnly) =>
    ⟨header.name, header.value, domain, hostOnly, header.cookiePath uriPath, header.expiryTime now, header.secure⟩

end SetCookie

namespace Cookie

def alive (cookie : Cookie ν) (now : Nat) : Bool := cookie.expiryTime.all (now ≤ ·)

/-- The cookie is for requests to the site. -/
def belongsTo (cookie : Cookie ν) (site : Site) : Bool :=
  (if cookie.hostOnly then site.host.text = cookie.domain else site.host.domainMatches cookie.domain) &&
    (!cookie.secure || site.secure)

/-- Cookies of one name, domain and path replace each other. -/
def sameKey (first second : Cookie ν) : Bool :=
  first.name = second.name && first.domain = second.domain && first.path = second.path

end Cookie

namespace CookieStore

def add (store : CookieStore ν) (cookie : Cookie ν) : CookieStore ν :=
  if store.any cookie.sameKey then store.map fun old => if cookie.sameKey old then cookie else old
  else store ++ [cookie]

/-- Processes the `Set-Cookie` headers of a response to a request for `uriPath`. -/
def receive (store : CookieStore ν) (site : Site) (now : Nat) (uriPath : String) (headers : List (SetCookie ν)) :
    CookieStore ν :=
  headers.foldl (fun store header => ((header.cookie site now uriPath).map store.add).getD store) store

/-- The `Cookie` header of a request: longer paths first, then older cookies. -/
def header (store : CookieStore ν) (site : Site) (now : Nat) (uriPath : String) : List (String × ν) :=
  ((store.filter fun cookie =>
      cookie.belongsTo site && cookie.alive now && pathMatches uriPath cookie.path).insertionSort
    fun first second => second.path.length ≤ first.path.length).map fun cookie => (cookie.name, cookie.value)

@[simp] theorem receive_nil (store : CookieStore ν) (site : Site) (now : Nat) (uriPath : String) :
    store.receive site now uriPath [] = store := rfl

/-- What is sent belongs to the site, and its path is the request path or one of its directories. -/
theorem of_mem_header {store : CookieStore ν} {site : Site} {now : Nat} {uriPath name : String} {value : ν}
    (sent : (name, value) ∈ store.header site now uriPath) :
    ∃ cookie ∈ store, cookie.belongsTo site = true ∧ pathMatches uriPath cookie.path = true := by
  simp only [header, List.mem_map, List.mem_insertionSort, List.mem_filter, Bool.and_eq_true] at sent
  obtain ⟨cookie, ⟨member, ⟨belongs, -⟩, under⟩, -⟩ := sent
  exact ⟨cookie, member, belongs, under⟩

/-- Nothing is sent where no cookie belongs to the site and has a path that matches. -/
theorem header_eq_nil {store : CookieStore ν} {site : Site} {now : Nat} {uriPath : String}
    (outside : ∀ cookie ∈ store, cookie.belongsTo site = true → pathMatches uriPath cookie.path = false) :
    store.header site now uriPath = [] := by
  refine List.eq_nil_iff_forall_not_mem.mpr fun ⟨name, value⟩ sent => ?_
  obtain ⟨cookie, member, belongs, under⟩ := of_mem_header sent
  rw [outside cookie member belongs] at under
  cases under

theorem header_singleton {cookie : Cookie ν} {site : Site} {now : Nat} {uriPath : String} :
    header [cookie] site now uriPath =
      if cookie.belongsTo site && cookie.alive now && pathMatches uriPath
        cookie.path then [(cookie.name, cookie.value)]
      else [] := by
  unfold header
  cases kept : cookie.belongsTo site && cookie.alive now && pathMatches uriPath cookie.path <;> simp [kept]

theorem add_of_sameKey {old new : Cookie ν} (same : new.sameKey old = true) : add [old] new = [new] := by
  simp [add, same]

/-- A cookie in the store was there before, or it is the one that was added. -/
theorem mem_add {store : CookieStore ν} {new cookie : Cookie ν} (member : cookie ∈ store.add new) :
    cookie ∈ store ∨ cookie = new := by
  unfold add at member
  split at member
  · obtain ⟨old, inStore, rfl⟩ := List.mem_map.mp member
    split
    · exact .inr rfl
    · exact .inl inStore
  · rcases List.mem_append.mp member with inStore | last
    · exact .inl inStore
    · exact .inr (List.mem_singleton.mp last)

/-- A cookie in the store was there before, or some header of the response has set it. -/
theorem mem_receive {store : CookieStore ν} {site : Site} {now : Nat} {uriPath : String}
    {headers : List (SetCookie ν)} {cookie : Cookie ν} (member : cookie ∈ store.receive site now uriPath headers) :
    cookie ∈ store ∨ ∃ header ∈ headers, header.cookie site now uriPath = some cookie := by
  induction headers generalizing store with
  | nil => exact .inl member
  | cons header headers ih =>
    rcases ih member with added | ⟨other, later, set⟩
    · simp only at added
      cases made : header.cookie site now uriPath with
      | none =>
        rw [made] at added
        exact .inl added
      | some new =>
        rw [made] at added
        rcases mem_add added with old | rfl
        · exact .inl old
        · exact .inr ⟨header, List.mem_cons_self, made⟩
    · exact .inr ⟨other, List.mem_cons_of_mem _ later, set⟩

/-- A cookie that a site has set belongs to it, unless it is for secure channels and the site is none. -/
theorem belongsTo_of_scope {site : Site} {named domain : String} {hostOnly : Bool}
    (scope : site.scope named = some (domain, hostOnly)) {cookie : Cookie ν} (own : cookie.domain = domain)
    (flag : cookie.hostOnly = hostOnly) : cookie.belongsTo site = (!cookie.secure || site.secure) := by
  unfold Site.scope at scope
  split at scope
  · cases scope
    simp [Cookie.belongsTo, own, flag]
  · split at scope
    · rename_i inside
      cases scope
      simp [Cookie.belongsTo, own, flag, inside.2]
    · cases scope

end CookieStore

end Http
