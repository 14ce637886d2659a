import Money.Contracts
import Money.Text

/-! The bounded transports of `data/security.py` and `data/uk/filing_documents.py`. What a server answers and what its
    names resolve to is given for each request. URL parsing, case folding and address tables are parameters. -/

namespace Money.Network
open Checked

inductive Address where
  | v4 (bits : BitVec 32)
  | v6 (bits : BitVec 128)
  deriving DecidableEq

/-- The result of `urlsplit`. Reading the port may raise, which is `none`. -/
structure UrlParts where
  scheme : String
  hostname : Option String
  port : Option (Option Nat)
  username : Option String := none
  password : Option String := none
  path : String := ""
  query : String := ""
  fragment : String := ""
  deriving DecidableEq

structure Internet where
  /-- `str.lower`. -/
  lower : String → String
  /-- `int(value)` where `value.isdecimal()`. -/
  decimal : String → Option Nat
  /-- `urlsplit` and `urljoin`; `none` where they raise a `ValueError`. -/
  urlsplit : String → Option UrlParts
  urljoin : String → String → Option String
  /-- `ipaddress.ip_address`, with `is_global` and `is_multicast` of its result. -/
  ipAddress : String → Option Address
  isGlobal : Address → Bool
  isMulticast : Address → Bool

inductive FetchError where
  /-- `SourceSecurityError`. -/
  | security (code : String)
  /-- `ProviderFailure`. -/
  | provider (code : String) (retryable : Bool) (httpStatus : Option Int)
  /-- A `ValueError` of the platform that the transports let through. -/
  | value
  deriving DecidableEq

def timedOut : FetchError := .provider "PROVIDER_TIMEOUT" true none

def printable (low : Nat) (value : String) : Bool :=
  value.toList.all fun c => low ≤ c.toNat && c.toNat ≤ 126

section
variable (N : Internet)

/-- `validate_url`: the host, which is one of the allowed ones, and the request target. -/
def validateUrl (url : String) (allowedHosts : List String) : Except FetchError (String × String) := do
  let denied := FetchError.security "SOURCE_URL_DENIED"
  let parts ← demand (N.urlsplit url) denied
  let host := N.lower (parts.hostname.getD "")
  require (url.length ≤ 4096 ∧ parts.scheme = "https" ∧ host ∈ allowedHosts ∧
      parts.port ∈ [some none, some (some 443)] ∧ parts.username = none ∧ parts.password = none ∧
      parts.fragment = "" ∧ printable 33 url = true ∧ '\\' ∉ url.toList)
    denied
  let target := if parts.path = "" then "/" else parts.path
  pure (host, if parts.query = "" then target else target ++ "?" ++ parts.query)

/-! ### Addresses -/

namespace Address

def leading (bits : BitVec 128) (count : Nat) : Nat := bits.toNat / 2 ^ (128 - count)

def word (bits : BitVec 128) (after : Nat) : BitVec 32 := .ofNat 32 (bits.toNat / 2 ^ (96 - after))

def ipv4Mapped (bits : BitVec 128) : Option (BitVec 32) := if leading bits 96 = 0xffff then some (word bits 96) else none

def sixToFour (bits : BitVec 128) : Option (BitVec 32) := if leading bits 16 = 0x2002 then some (word bits 16) else none

def teredo (bits : BitVec 128) : Option (BitVec 32 × BitVec 32) :=
  if leading bits 32 = 0x20010000 then some (word bits 32, ~~~ word bits 96) else none

/-- Membership of `64:ff9b::/96`, with the address that is translated to. -/
def translated (bits : BitVec 128) : Option (BitVec 32) :=
  if leading bits 96 = 0x0064ff9b0000000000000000 then some (word bits 96) else none

end Address

/-- The embedded address that `public_addresses` looks at. -/
def embedded (bits : BitVec 128) : Option (BitVec 32) :=
  match Address.translated bits with
  | some v => some v
  | none => (Address.ipv4Mapped bits).or (Address.sixToFour bits)

def addressDenied : FetchError := .security "SOURCE_ADDRESS_DENIED"

def checkAddress (address : String) : Except FetchError Unit := do
  let parsed ← demand (N.ipAddress address) .value
  require (N.isGlobal parsed = true ∧ N.isMulticast parsed = false) addressDenied
  match parsed with
  | .v4 _ => pure ()
  | .v6 bits =>
    require ((embedded bits).all (fun v => N.isGlobal (.v4 v)) = true ∧ Address.teredo bits = none) addressDenied

/-- What became of the resolution of a name: no resolver was free, it took too long, it failed, or it has answers. -/
inductive Resolution where
  | unavailable
  | late
  | failed
  | answers (addresses : List String)
  deriving DecidableEq

/-- `public_addresses`, given the answer of the resolver. -/
def publicAddresses (timeout : Int) (resolution : Resolution) : Except FetchError (List String) := do
  require (0 < timeout ∧ timeout ≤ seconds 5) (.provider "PROVIDER_DNS_UNAVAILABLE" true none)
  match resolution with
  | .unavailable => .error (.provider "PROVIDER_DNS_UNAVAILABLE" true none)
  | .late => .error timedOut
  | .failed => .error (.provider "PROVIDER_UNAVAILABLE" true none)
  | .answers raw =>
    let addresses := raw.eraseDups
    addresses.forM (checkAddress N)
    require (addresses ≠ []) addressDenied
    pure addresses

/-! ### Requests and answers -/

/-- A request over a connection: TLS for `host`, over TCP to `address` and `port`. -/
structure Request where
  host : String
  address : String
  port : Nat
  tls : Bool
  target : String
  headers : List (String × String)
  deriving DecidableEq

/-- `_PinnedHTTPS`: the connection uses the validated address, while TLS verifies the host name. -/
def pinned (host address target : String) (headers : List (String × String)) : Request :=
  { host, address, port := 443, tls := true, target, headers }

/-- One call of `read1`: the time before it, and the bytes that there are; `none` where it fails. -/
structure BodyRead where
  time : Int
  bytes : Option (List UInt8)
  deriving DecidableEq

/-- A response: its status, its headers as `getheader` returns them, and its body as it comes in. -/
structure Response where
  status : Int
  header : String → Option String
  body : List BodyRead

/-- What a request meets: the clock around its resolution, the resolutions, the response or its failure, and the clock
    after it. -/
structure Hop where
  beforeDns : Int
  afterDns : Int
  dns : String → Resolution
  response : Option Response
  timesOut : Bool
  afterResponse : Int

def transportFailure (deadline : Int) (h : Hop) : FetchError :=
  if h.timesOut = true ∨ deadline ≤ h.afterResponse then timedOut else .provider "PROVIDER_UNAVAILABLE" true none

/-! ### Fetching -/

/-- `SafeFetcher`, with the bounds that its constructor checks. -/
structure Fetcher where
  allowedHosts : List String
  maximumBytes : Nat := 2000000
  timeout : Int := seconds 20
  maximumRedirects : Nat := 2
  userAgent : String := "Money-research/0.2"
  bounded : allowedHosts ≠ [] ∧ 0 < maximumBytes ∧ maximumBytes ≤ 20000000 ∧ 0 < timeout ∧ timeout ≤ seconds 120 ∧
    maximumRedirects ≤ 3 ∧ 1 ≤ userAgent.length ∧ userAgent.length ≤ 200 ∧ printable 32 userAgent = true

structure FetchResult where
  content : List UInt8
  mime : String
  deriving DecidableEq

def checkHeaders (headers : List (String × String)) : Except FetchError Unit :=
  require (∀ header ∈ headers, N.lower header.1 ∈ ["authorization", "accept"] ∧ header.2.length ≤ 8192 ∧
      printable 32 header.2 = true)
    (.security "SOURCE_HEADER_DENIED")

def update (headers : List (String × String)) (more : List (String × String)) : List (String × String) :=
  headers.filter (fun header => header.1 ∉ more.map (·.1)) ++ more

/-- The request of one round: the URL is validated, its host resolved, and the connection pinned to the first
    address. -/
def openRequest (F : Fetcher) (deadline : Int) (headers : List (String × String)) (url : String) (h : Hop) :
    Except FetchError Request := do
  let (host, target) ← validateUrl N url F.allowedHosts
  require (h.beforeDns < deadline) timedOut
  let addresses ← publicAddresses N (min (deadline - h.beforeDns) (seconds 5)) (h.dns host)
  require (h.afterDns < deadline) timedOut
  let address ← demand addresses.head? .value
  pure (pinned host address target headers)

def readBody (maximumBytes : Nat) (deadline : Int) (h : Hop) (content : List UInt8) :
    List BodyRead → Except FetchError (List UInt8)
  | [] => .ok content
  | r :: rest =>
    if deadline ≤ r.time then .error timedOut
    else
      match r.bytes with
      | none => .error (transportFailure deadline h)
      | some bytes =>
        let chunk := bytes.take (min 65536 (maximumBytes + 1 - content.length))
        if chunk = [] then .ok content
        else if maximumBytes < content.length + chunk.length then .error (.security "SOURCE_SIZE_LIMIT")
        else readBody maximumBytes deadline h (content ++ chunk) rest

inductive Outcome where
  | fetched (result : FetchResult)
  | redirected (url : String)
  deriving DecidableEq

def encodingOf (r : Response) : String := N.lower ((r.header "Content-Encoding").getD "identity")

def mimeOf (r : Response) : String :=
  N.lower (Text.strip (String.ofList (((r.header "Content-Type").getD "").toList.takeWhile (· ≠ ';'))))

def redirect (F : Fetcher) (host url : String) (last : Bool) (r : Response) : Except FetchError String := do
  require (last = false) (.security "SOURCE_REDIRECT_LIMIT")
  let location ← demand ((r.header "Location").filter (· ≠ "")) (.security "SOURCE_REDIRECT_INVALID")
  let redirected ← demand (N.urljoin url location) .value
  let (nextHost, _) ← validateUrl N redirected F.allowedHosts
  require (nextHost = host) (.security "SOURCE_CROSS_ORIGIN_REDIRECT_DENIED")
  pure redirected

/-- The body of a response, if its status, encoding, type and length are admissible. -/
def accept (F : Fetcher) (deadline : Int) (mimeTypes : List String) (h : Hop) (r : Response) :
    Except FetchError FetchResult := do
  require (r.status = 200)
    (.provider "PROVIDER_UNAVAILABLE" (500 ≤ r.status ∨ r.status = 429)
      (if 100 ≤ r.status ∧ r.status ≤ 599 then some r.status else none))
  require (encodingOf N r = "identity") (.security "SOURCE_COMPRESSION_DENIED")
  require (mimeOf N r ∈ mimeTypes) (.security "SOURCE_MIME_DENIED")
  require (∀ length ∈ (r.header "Content-Length").filter (· ≠ ""), ∃ n ∈ N.decimal length, n ≤ F.maximumBytes)
    (.security "SOURCE_SIZE_LIMIT")
  let content ← readBody F.maximumBytes deadline h [] r.body
  pure { content, mime := mimeOf N r }

def conclude (F : Fetcher) (deadline : Int) (mimeTypes : List String) (url host : String) (last : Bool) (h : Hop) :
    Except FetchError Outcome :=
  match h.response with
  | none => .error (transportFailure deadline h)
  | some r =>
    if r.status ∈ [301, 302, 303, 307, 308] then .redirected <$> redirect N F host url last r
    else .fetched <$> accept N F deadline mimeTypes h r

structure Run (α : Type) where
  requests : List Request
  outcome : Except FetchError α

/-- The rounds of `SafeFetcher.get` from a URL on, with so many redirects left. -/
def follow (F : Fetcher) (deadline : Int) (headers : List (String × String)) (mimeTypes : List String) :
    Nat → String → (Nat → Hop) → Run FetchResult
  | left, url, hops =>
    match openRequest N F deadline headers url (hops 0) with
    | .error e => ⟨[], .error e⟩
    | .ok request =>
      match conclude N F deadline mimeTypes url request.host (left = 0) (hops 0) with
      | .error e => ⟨[request], .error e⟩
      | .ok (.fetched result) => ⟨[request], .ok result⟩
      | .ok (.redirected next) =>
        match left with
        | 0 => ⟨[request], .error (.security "SOURCE_REDIRECT_LIMIT")⟩
        | left + 1 =>
          let rest := follow F deadline headers mimeTypes left next fun i => hops (i + 1)
          ⟨request :: rest.requests, rest.outcome⟩

def Fetcher.get (F : Fetcher) (url : String) (headers : List (String × String)) (mimeTypes : List String) (start : Int)
    (hops : Nat → Hop) : Run FetchResult :=
  match checkHeaders N headers with
  | .error e => ⟨[], .error e⟩
  | .ok _ =>
    follow N F (start + F.timeout)
      (update [("Accept-Encoding", "identity"), ("User-Agent", F.userAgent)] headers) mimeTypes F.maximumRedirects url hops

/-! ### Filing documents -/

def apiHost : String := "api.company-information.service.gov.uk"
def documentHost : String := "document-api.company-information.service.gov.uk"
def machineTypes : List String := ["application/xhtml+xml", "application/xml", "application/zip"]

/-- `CompaniesHouseDocumentTransport`, with the bounds that its constructor checks. -/
structure DocumentTransport where
  credential : String
  storageHosts : List String := []
  maximumBytes : Nat := 5000000
  timeout : Int := seconds 20
  bounded : 0 < maximumBytes ∧ maximumBytes ≤ 20000000 ∧ 0 < timeout ∧ timeout ≤ seconds 120

namespace DocumentTransport
variable (T : DocumentTransport)

def authorization : String := "Basic " ++ T.credential

def fetcher (hosts : List String) (maximumBytes : Nat)
    (bounded : hosts ≠ [] ∧ 0 < maximumBytes ∧ maximumBytes ≤ 20000000) : Fetcher where
  allowedHosts := hosts
  maximumBytes := maximumBytes
  timeout := T.timeout
  maximumRedirects := 0
  bounded := ⟨bounded.1, bounded.2.1, bounded.2.2, T.bounded.2.2.1, T.bounded.2.2.2, by decide, by decide, by decide,
    by decide⟩

def metadata (url : String) (start : Int) (hops : Nat → Hop) : Run FetchResult :=
  match validateUrl N url [apiHost, documentHost] with
  | .error e => ⟨[], .error e⟩
  | .ok _ =>
    (T.fetcher [apiHost, documentHost] 500000 (by decide)).get N url
      [("Authorization", T.authorization), ("Accept", "application/json")] ["application/json"] start hops

/-- The path of a document's content, with an identifier of up to 128 characters. -/
def isContentPath (target : String) : Bool :=
  let opening := "/document/".toList
  let ending := "/content".toList
  let cs := target.toList
  let identifier := (cs.drop opening.length).take (cs.length - opening.length - ending.length)
  cs == opening ++ identifier ++ ending && identifier.length ∈ List.range' 1 128 &&
    identifier.all fun c => c.isAlphanum || c == '_' || c == '-'

def locate (url : String) (discoverOnly : Bool) (r : Response) : Except FetchError String :=
  if r.status = 200 then .ok url
  else do
    require (r.status = 302)
      (.provider "FILING_DOCUMENT_UNAVAILABLE" (r.status = 429 ∨ 500 ≤ r.status) none)
    let location ← demand ((r.header "Location").filter (· ≠ "")) (.security "FILING_LOCATION_MISSING")
    let redirected ← demand (N.urljoin url location) .value
    let allowed ←
      if discoverOnly = true then do
        let parts ← demand (N.urlsplit redirected) .value
        let destination ← demand parts.hostname (.security "FILING_LOCATION_MISSING")
        pure [destination]
      else pure (T.storageHosts ++ [documentHost])
    let _ ← validateUrl N redirected allowed
    pure redirected

def lookupRequest (url mime : String) (deadline : Int) (h : Hop) : Except FetchError Request := do
  let (host, target) ← validateUrl N url [documentHost]
  require (isContentPath target = true) (.security "FILING_CONTENT_URL_INVALID")
  let addresses ← publicAddresses N (min T.timeout (seconds 5)) (h.dns host)
  require (h.afterDns < deadline) timedOut
  let address ← demand addresses.head? .value
  pure (pinned host address target [("Authorization", T.authorization), ("Accept", mime),
    ("Accept-Encoding", "identity"), ("User-Agent", "Money-research/0.2")])

def location (url mime : String) (discoverOnly : Bool) (start : Int) (h : Hop) : Run String :=
  match T.lookupRequest N url mime (start + T.timeout) h with
  | .error e => ⟨[], .error e⟩
  | .ok request => ⟨[request],
      match h.response with
      | none => .error (transportFailure (start + T.timeout) h)
      | some r =>
        if start + T.timeout ≤ h.afterResponse then .error timedOut else T.locate N url discoverOnly r⟩

def inspectStorageHost (url mime : String) (start : Int) (h : Hop) : Run String :=
  if mime ∈ machineTypes then
    let found := T.location N url mime true start h
    ⟨found.requests, do
      let location ← found.outcome
      let parts ← demand (N.urlsplit location) .value
      demand parts.hostname (.security "FILING_LOCATION_MISSING")⟩
  else ⟨[], .error (.security "FILING_MIME_UNSUPPORTED")⟩

/-- The download from a location, with the key only where the location is at the document service itself. -/
def download (mime location : String) (start : Int) (hops : Nat → Hop) : Run (FetchResult × String) :=
  match validateUrl N location (T.storageHosts ++ [documentHost]) with
  | .error e => ⟨[], .error e⟩
  | .ok (host, _) =>
    let headers := [("Accept", mime)] ++ if host = documentHost then [("Authorization", T.authorization)] else []
    let fetched := (T.fetcher [host] T.maximumBytes ⟨by simp, T.bounded.1, T.bounded.2.1⟩).get N location headers [mime]
      start hops
    ⟨fetched.requests, do pure (← fetched.outcome, host)⟩

/-- `content`: one lookup, then a separately bounded download from where it leads; `again` is the clock then. -/
def content (url mime : String) (start again : Int) (hops : Nat → Hop) : Run (FetchResult × String) :=
  if mime ∈ machineTypes then
    let found := T.location N url mime false start (hops 0)
    match found.outcome with
    | .error e => ⟨found.requests, .error e⟩
    | .ok location =>
      let rest := T.download N mime location again fun i => hops (i + 1)
      ⟨found.requests ++ rest.requests, rest.outcome⟩
  else ⟨[], .error (.security "FILING_MIME_UNSUPPORTED")⟩

end DocumentTransport
end

end Money.Network
