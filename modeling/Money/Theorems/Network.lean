import Money.Network

/-! Confinement of the fetchers. Each round validates its URL anew, so all connections go to one host, at an address
    that passed the check. The check knows four forms of IPv4 addresses inside IPv6 ones; the IPv4-compatible form is
    not among them. -/

namespace Money.Network
open Checked List

/-! ### Addresses -/

namespace Address

def ipv4Compatible (bits : BitVec 128) : Option (BitVec 32) := if leading bits 96 = 0 then some (word bits 96) else none

/-- The IPv4 addresses that an address carries as an IPv4-compatible, IPv4-mapped, 6to4, translated (NAT64) or Teredo
    address. -/
def embeddings : Address → List (BitVec 32)
  | .v4 _ => []
  | .v6 bits => (ipv4Compatible bits).toList ++ (ipv4Mapped bits).toList ++ (sixToFour bits).toList ++
      (translated bits).toList ++ (teredo bits).toList.flatMap fun (server, client) => [server, client]

def compatible : Address → Option (BitVec 32)
  | .v4 _ => none
  | .v6 bits => ipv4Compatible bits

variable {v : BitVec 32} {bits : BitVec 128}

theorem mem_embeddings {a : Address} (h : v ∈ a.compatible) : v ∈ a.embeddings := by
  cases a with
  | v4 bits => simp [compatible] at h
  | v6 bits =>
    rw [compatible, Option.mem_def] at h
    simp [embeddings, h]

theorem embedded_of_sixToFour (h : sixToFour bits = some v) : embedded bits = some v := by
  -- The leading 16 bits tell a 6to4 address from the forms with 96 leading bits.
  have first : leading bits 16 = 0x2002 := by
    by_contra other
    simp [sixToFour, other] at h
  have large : 2 ^ 90 < leading bits 96 := by
    simp only [leading] at first ⊢
    omega
  simp only [embedded, translated, ipv4Mapped, h]
  rw [if_neg (by omega), if_neg (by omega)]
  rfl

theorem embedded_of_ipv4Mapped (h : ipv4Mapped bits = some v) : embedded bits = some v := by
  have mapped : leading bits 96 = 0xffff := by
    by_contra other
    simp [ipv4Mapped, other] at h
  simp only [embedded, translated, h]
  rw [if_neg (by omega)]
  rfl

theorem embedded_of_translated (h : translated bits = some v) : embedded bits = some v := by
  simp only [embedded, h]

end Address

section
variable {N : Internet}

/-- An address that a connection may go to: global, not multicast, and without an IPv4 address that is not global. -/
structure Public (N : Internet) (a : Address) : Prop where
  isGlobal : N.isGlobal a = true
  unicast : N.isMulticast a = false
  embedded : ∀ v ∈ a.embeddings, N.isGlobal (.v4 v) = true

variable {address host target url : String} {start timeout : Int} {addresses : List String} {h : Hop} {r : Request}
  {last : Bool}

theorem checkAddress_ok {u : Unit} (h : checkAddress N address = .ok u) : ∃ a, N.ipAddress address = some a ∧
      (Public N a ↔ ∀ v ∈ a.compatible, N.isGlobal (.v4 v) = true) := by
  simp only [checkAddress, ok_iff] at h
  obtain ⟨a, known, ⟨global, unicast⟩, h⟩ := h
  refine ⟨a, known, fun open_ v hv => open_.embedded v (Address.mem_embeddings hv), fun compatible =>
    ⟨global, unicast, ?_⟩⟩
  cases a with
  | v4 bits => simp [Address.embeddings]
  | v6 bits =>
    obtain ⟨looked, teredo⟩ := require_eq_ok.mp h
    rw [Option.all_eq_true] at looked
    simp only [Address.embeddings, teredo, Option.toList_none, flatMap_nil, append_nil,
      forall_mem_append, Option.mem_toList]
    exact ⟨⟨⟨compatible, fun v hv => looked v (Address.embedded_of_ipv4Mapped hv)⟩,
      fun v hv => looked v (Address.embedded_of_sixToFour hv)⟩,
      fun v hv => looked v (Address.embedded_of_translated hv)⟩

theorem publicAddresses_ok {resolution : Resolution} (h : publicAddresses N timeout resolution = .ok addresses) :
    ∃ raw, resolution = .answers raw ∧ addresses = raw.eraseDups ∧ ∀ address ∈ raw, checkAddress N address = .ok () := by
  simp only [publicAddresses, bind_eq_ok] at h
  obtain ⟨-, -, h⟩ := h
  cases resolution with
  | answers raw =>
    simp only [ok_iff] at h
    obtain ⟨u, checked, -, -, rfl⟩ := h
    exact ⟨raw, rfl, rfl, fun address member => forM_eq_ok.mp checked address (mem_eraseDups.mpr member)⟩
  | unavailable => cases h
  | late => cases h
  | failed => cases h

/-! ### One round -/

def hostOf (N : Internet) (url : String) : String := N.lower (((N.urlsplit url).bind (·.hostname)).getD "")

theorem validateUrl_ok {allowed : List String}
    (h : validateUrl N url allowed = .ok (host, target)) : host = hostOf N url ∧ host ∈ allowed := by
  simp only [validateUrl, ok_iff] at h
  obtain ⟨parts, split, checks, same⟩ := h
  obtain ⟨rfl, -⟩ := Prod.mk.inj same
  exact ⟨by simp [hostOf, split], checks.2.2.1⟩

/-- A request over TLS to port 443 of an address from a resolution of its host, all of which passed the check. -/
structure Pinned (N : Internet) (h : Hop) (r : Request) : Prop where
  tls : r.tls = true
  port : r.port = 443
  resolved : ∃ answers, h.dns r.host = .answers answers ∧ r.address ∈ answers ∧
    ∀ address ∈ answers, checkAddress N address = .ok ()

theorem pinned_of {headers : List (String × String)} (resolved : publicAddresses N timeout (h.dns host) = .ok addresses)
    (first : addresses.head? = some address) : Pinned N h (pinned host address target headers) := by
  obtain ⟨raw, answered, rfl, checked⟩ := publicAddresses_ok resolved
  exact ⟨rfl, rfl, raw, answered, mem_eraseDups.mp (mem_of_head? first), checked⟩

variable {F : Fetcher} {deadline : Int} {headers : List (String × String)} {mimeTypes : List String} {hops : Nat → Hop}

theorem openRequest_ok (opened : openRequest N F deadline headers url h = .ok r) :
    r.host = hostOf N url ∧ r.host ∈ F.allowedHosts ∧ Pinned N h r ∧ r.headers = headers := by
  simp only [openRequest, ok_iff] at opened
  obtain ⟨⟨host, target⟩, valid, -, addresses, resolved, -, address, first, rfl⟩ := opened
  obtain ⟨named, allowed⟩ := validateUrl_ok valid
  exact ⟨named, allowed, pinned_of resolved first, rfl⟩

theorem conclude_redirected {next : String}
    (concluded : conclude N F deadline mimeTypes url host last h = .ok (.redirected next)) : hostOf N next = host := by
  unfold conclude at concluded
  split at concluded
  · cases concluded
  · split at concluded
    · cases found : redirect N F host url last _ with
      | error e => rw [found] at concluded; cases concluded
      | ok next' =>
        rw [found] at concluded
        cases concluded
        simp only [redirect, ok_iff] at found
        obtain ⟨-, location, -, redirected, -, ⟨nextHost, target⟩, valid, same, rfl⟩ := found
        exact (validateUrl_ok valid).1.symm.trans same
    · cases found : accept N F deadline mimeTypes h _ with
      | error e => rw [found] at concluded; cases concluded
      | ok result => rw [found] at concluded; cases concluded

theorem readBody_length {maximumBytes : Nat} :
    ∀ {reads : List BodyRead} {content result : List UInt8}, content.length ≤ maximumBytes →
      readBody maximumBytes deadline h content reads = .ok result → result.length ≤ maximumBytes
  | [], content, result, bounded, read => by
    cases read
    exact bounded
  | r :: rest, content, result, bounded, read => by
    unfold readBody at read
    split at read
    · cases read
    · split at read
      · cases read
      · dsimp only at read
        split at read
        · cases read
          exact bounded
        · split at read
          · cases read
          next within => exact readBody_length (by rw [length_append]; omega) read

/-- A response that the fetcher may return. -/
structure Admissible (N : Internet) (F : Fetcher) (mimeTypes : List String) (r : Response) (result : FetchResult) :
    Prop where
  status : r.status = 200
  encoding : encodingOf N r = "identity"
  mime : result.mime = mimeOf N r ∧ mimeOf N r ∈ mimeTypes
  size : result.content.length ≤ F.maximumBytes

theorem conclude_fetched {result : FetchResult}
    (concluded : conclude N F deadline mimeTypes url host last h = .ok (.fetched result)) :
    ∃ r, h.response = some r ∧ Admissible N F mimeTypes r result := by
  unfold conclude at concluded
  split at concluded
  · cases concluded
  next r answered =>
    refine ⟨r, answered, ?_⟩
    split at concluded
    · cases found : redirect N F host url last r with
      | error e => rw [found] at concluded; cases concluded
      | ok next => rw [found] at concluded; cases concluded
    · cases found : accept N F deadline mimeTypes h r with
      | error e => rw [found] at concluded; cases concluded
      | ok result' =>
        rw [found] at concluded
        cases concluded
        simp only [accept, ok_iff] at found
        obtain ⟨status, encoding, mime, -, content, read, rfl⟩ := found
        exact ⟨status, encoding, ⟨rfl, mime⟩, readBody_length (Nat.zero_le _) read⟩

/-! ### All rounds -/

theorem follow_request : ∀ {left : Nat} {url : String} {hops : Nat → Hop} {i : Nat} {r : Request},
    (follow N F deadline headers mimeTypes left url hops).requests[i]? = some r →
      r.host = hostOf N url ∧ r.host ∈ F.allowedHosts ∧ Pinned N (hops i) r ∧ r.headers = headers := by
  intro left
  induction left with
  | zero =>
    intro url hops i r found
    unfold follow at found
    split at found
    · simp at found
    next request opened =>
      have first : i = 0 ∧ r = request := by
        split at found
        all_goals
          obtain _ | i := i <;> simp_all
      obtain ⟨rfl, rfl⟩ := first
      exact openRequest_ok opened
  | succ left ih =>
    intro url hops i r found
    unfold follow at found
    split at found
    · simp at found
    next request opened =>
      obtain ⟨named, allowed, pinned_, sent⟩ := openRequest_ok opened
      cases i with
      | zero =>
        obtain rfl : r = request := by
          split at found <;> simp_all
        exact ⟨named, allowed, pinned_, sent⟩
      | succ i =>
        split at found
        · simp at found
        · simp at found
        next next_ concluded =>
          obtain ⟨host, rest⟩ := ih found
          exact ⟨host.trans ((conclude_redirected concluded).trans named), rest⟩

theorem follow_length : ∀ {left : Nat} {url : String} {hops : Nat → Hop},
    (follow N F deadline headers mimeTypes left url hops).requests.length ≤ left + 1 := by
  intro left
  induction left with
  | zero =>
    intro url hops
    unfold follow
    split
    · simp
    · split <;> simp
  | succ left ih =>
    intro url hops
    unfold follow
    split
    · simp
    · split
      · simp
      · simp
      · simpa using ih

theorem follow_result : ∀ {left : Nat} {url : String} {hops : Nat → Hop} {result : FetchResult},
    (follow N F deadline headers mimeTypes left url hops).outcome = .ok result →
      ∃ i r, i + 1 = (follow N F deadline headers mimeTypes left url hops).requests.length ∧
        (hops i).response = some r ∧ Admissible N F mimeTypes r result := by
  intro left
  induction left with
  | zero =>
    intro url hops result
    unfold follow
    split
    · simp
    · split
      · simp
      next fetched concluded =>
        rintro ⟨⟩
        obtain ⟨r, answered, admissible⟩ := conclude_fetched concluded
        exact ⟨0, r, rfl, answered, admissible⟩
      · simp
  | succ left ih =>
    intro url hops result
    unfold follow
    split
    · simp
    · split
      · simp
      next fetched concluded =>
        rintro ⟨⟩
        obtain ⟨r, answered, admissible⟩ := conclude_fetched concluded
        exact ⟨0, r, rfl, answered, admissible⟩
      · intro got
        obtain ⟨i, r, last, answered, admissible⟩ := ih got
        exact ⟨i + 1, r, by simpa using last, answered, admissible⟩

/-- All requests of `get` go over TLS to port 443 of its one allowed host, at an address of a resolution with public
    addresses only; a result is the bounded body of an admissible answer. -/
structure Confined (N : Internet) (F : Fetcher) (url : String) (mimeTypes : List String) (hops : Nat → Hop)
    (run : Run FetchResult) : Prop where
  request : ∀ i r, run.requests[i]? = some r → r.tls = true ∧ r.port = 443 ∧ r.host = hostOf N url ∧
    r.host ∈ F.allowedHosts ∧ ∃ answers, (hops i).dns r.host = .answers answers ∧ r.address ∈ answers ∧
      ∀ address ∈ answers, ∃ a, N.ipAddress address = some a ∧ Public N a
  requests : run.requests.length ≤ F.maximumRedirects + 1
  result : ∀ result, run.outcome = .ok result → ∃ i r, i + 1 = run.requests.length ∧ (hops i).response = some r ∧
    Admissible N F mimeTypes r result

/-- No resolution for a request answers with an IPv4-compatible address of an IPv4 address that is not global. -/
def Undisguised (N : Internet) (url : String) (hops : Nat → Hop) (requests : Nat) : Prop :=
  ∀ i < requests, ∀ answers, (hops i).dns (hostOf N url) = .answers answers →
    ∀ address ∈ answers, ∀ a, N.ipAddress address = some a → ∀ v ∈ a.compatible, N.isGlobal (.v4 v) = true

theorem get_confined_iff (F : Fetcher) (url : String) (headers : List (String × String)) (mimeTypes : List String)
    (start : Int) (hops : Nat → Hop) : Confined N F url mimeTypes hops (F.get N url headers mimeTypes start hops) ↔
      Undisguised N url hops (F.get N url headers mimeTypes start hops).requests.length := by
  unfold Fetcher.get
  split
  · refine ⟨fun _ i many => absurd many (Nat.not_lt_zero i), fun _ => ⟨?_, by simp, ?_⟩⟩
    · simp
    · simp
  · refine ⟨fun confined i many answers answered address member a known => ?_, fun undisguised =>
      ⟨?_, follow_length, fun _ => follow_result⟩⟩
    · obtain ⟨-, -, named, -, answers', answered', -, passed⟩ := confined.request i _ (List.getElem?_eq_getElem many)
      rw [named, answered] at answered'
      cases answered'
      obtain ⟨a', known', open_⟩ := passed address member
      rw [known] at known'
      cases known'
      exact fun v hv => open_.embedded v (Address.mem_embeddings hv)
    · intro i r found
      obtain ⟨named, allowed, pinned_, -⟩ := follow_request found
      obtain ⟨answers, answered, member, checked⟩ := pinned_.resolved
      refine ⟨pinned_.tls, pinned_.port, named, allowed, answers, answered, member, fun address hm => ?_⟩
      obtain ⟨a, known, public_⟩ := checkAddress_ok (checked address hm)
      refine ⟨a, known, public_.mpr (undisguised i ?_ answers (named ▸ answered) address hm a known)⟩
      exact (List.getElem?_eq_some_iff.mp found).1

/-! ### The transport for filing documents -/

/-- The requests of `get` have the headers of its caller and two more, and stay with the hosts of the fetcher. -/
theorem get_request {F : Fetcher} {headers : List (String × String)} {mimeTypes : List String}
    {hops : Nat → Hop} (h : r ∈ (F.get N url headers mimeTypes start hops).requests) :
    r.host ∈ F.allowedHosts ∧ r.host = hostOf N url ∧ r.tls = true ∧ r.port = 443 ∧
      ∀ header ∈ r.headers, header ∈ headers ∨ header = ("Accept-Encoding", "identity") ∨
        header = ("User-Agent", F.userAgent) := by
  unfold Fetcher.get at h
  split at h
  · simp at h
  · obtain ⟨i, found⟩ := mem_iff_getElem?.mp h
    obtain ⟨named, allowed, pinned_, sent⟩ := follow_request found
    refine ⟨allowed, named, pinned_.tls, pinned_.port, fun header member => ?_⟩
    rw [sent, update, mem_append, mem_filter] at member
    simp only [mem_cons, not_mem_nil, or_false] at member
    rcases member with ⟨own, -⟩ | given
    · exact .inr own
    · exact .inl given

theorem get_length {F : Fetcher} {headers : List (String × String)} {mimeTypes : List String} {hops : Nat → Hop} :
    (F.get N url headers mimeTypes start hops).requests.length ≤ F.maximumRedirects + 1 := by
  unfold Fetcher.get
  split
  · simp
  · exact follow_length

/-- A call of the transport, with the clock at its start; `content` reads it again before the download. -/
inductive DocumentCall where
  | metadata (url : String) (start : Int)
  | inspectStorageHost (url mime : String) (start : Int)
  | content (url mime : String) (start again : Int)

def DocumentTransport.requests (N : Internet) (T : DocumentTransport) (hops : Nat → Hop) : DocumentCall → List Request
  | .metadata url start => (T.metadata N url start hops).requests
  | .inspectStorageHost url mime start => (T.inspectStorageHost N url mime start (hops 0)).requests
  | .content url mime start again => (T.content N url mime start again hops).requests

/-- The first request goes to one of the two services, at most one follows, and only the two services get the key. -/
structure Discreet (T : DocumentTransport) (requests : List Request) : Prop where
  first : ∀ r ∈ requests.head?, r.host ∈ [apiHost, documentHost]
  followed : requests.tail.length ≤ 1 ∧ ∀ r ∈ requests.tail, r.host ∈ documentHost :: T.storageHosts
  secure : ∀ r ∈ requests, r.tls = true ∧ r.port = 443
  credential : ∀ r ∈ requests, ∀ header ∈ r.headers, header.1 = "Authorization" ∨ header.2 = T.authorization →
    r.host ∈ [apiHost, documentHost]

namespace DocumentTransport
variable {T : DocumentTransport}

theorem authorization_ne {value : String} (h : value.toList.head? ≠ some 'B') : T.authorization ≠ value := by
  rintro rfl
  simp [authorization] at h

theorem discreet_of_services {requests : List Request} (one : requests.length ≤ 1)
    (services : ∀ r ∈ requests, r.host ∈ [apiHost, documentHost] ∧ r.tls = true ∧ r.port = 443) : Discreet T requests where
  first := fun r head => (services r (mem_of_head? head)).1
  followed := by
    have none : requests.tail = [] := eq_nil_of_length_eq_zero (by rw [length_tail]; omega)
    simp [none]
  secure := fun r member => (services r member).2
  credential := fun r member _ _ _ => (services r member).1

variable {mime : String} {r : Request}

theorem lookupRequest_ok {url : String} {deadline : Int} {h : Hop} (opened : T.lookupRequest N url mime deadline h = .ok r) :
    r.host = documentHost ∧ r.tls = true ∧ r.port = 443 := by
  simp only [lookupRequest, ok_iff] at opened
  obtain ⟨⟨host, target⟩, valid, -, addresses, -, -, address, -, rfl⟩ := opened
  have host : host = documentHost := by simpa using (validateUrl_ok valid).2
  exact ⟨host, rfl, rfl⟩

theorem location_requests (url mime : String) (discoverOnly : Bool) (start : Int) (h : Hop) :
    (T.location N url mime discoverOnly start h).requests = [] ∧
        (∃ e, (T.location N url mime discoverOnly start h).outcome = .error e) ∨
      ∃ r, (T.location N url mime discoverOnly start h).requests = [r] ∧ r.host = documentHost ∧ r.tls = true ∧
        r.port = 443 := by
  unfold location
  split
  next e _ => exact .inl ⟨rfl, e, rfl⟩
  next r opened => exact .inr ⟨r, rfl, lookupRequest_ok opened⟩

theorem location_discreet (url mime : String) (discoverOnly : Bool) (start : Int) (h : Hop) :
    Discreet T (T.location N url mime discoverOnly start h).requests := by
  rcases location_requests url mime discoverOnly start h with ⟨none, -⟩ | ⟨r, one, host, secure⟩
  · rw [none]
    exact discreet_of_services (by simp) (by simp)
  · rw [one]
    exact discreet_of_services (by simp) (by simp [host, secure])

theorem download_requests (known : mime ∈ machineTypes) (location : String) (start : Int) (hops : Nat → Hop) :
    (T.download N mime location start hops).requests.length ≤ 1 ∧
      ∀ r ∈ (T.download N mime location start hops).requests, r.host ∈ documentHost :: T.storageHosts ∧
        (r.tls = true ∧ r.port = 443) ∧
        ∀ header ∈ r.headers, header.1 = "Authorization" ∨ header.2 = T.authorization → r.host = documentHost := by
  unfold download
  split
  · simp
  next host target valid =>
    refine ⟨get_length, fun r member => ?_⟩
    obtain ⟨allowed, -, tls, port, sent⟩ := get_request member
    have same : r.host = host := by simpa [fetcher] using allowed
    have reviewed : host ∈ documentHost :: T.storageHosts := by
      have allowed' := (validateUrl_ok valid).2
      rw [mem_append, mem_singleton] at allowed'
      exact mem_cons.mpr allowed'.symm
    refine ⟨same ▸ reviewed, ⟨tls, port⟩, fun header carried secret => ?_⟩
    by_contra other
    rw [same] at other
    -- Anything else that is sent to a storage host is neither called so nor the key.
    have harmless : header.1 ≠ "Authorization" ∧ header.2 ≠ T.authorization := by
      rcases sent header carried with given | rfl | rfl
      · simp only [if_neg other, append_nil, mem_singleton] at given
        subst given
        refine ⟨by simp, (authorization_ne ?_).symm⟩
        simp only [machineTypes, mem_cons, not_mem_nil, or_false] at known
        rcases known with rfl | rfl | rfl <;> decide
      · exact ⟨by simp, (authorization_ne (by simp)).symm⟩
      · exact ⟨by simp, (authorization_ne (by simp [fetcher])).symm⟩
    exact secret.elim harmless.1 harmless.2

theorem content_discreet (known : mime ∈ machineTypes) (host : r.host = documentHost)
    (secure : r.tls = true ∧ r.port = 443) (location : String) (start : Int) (hops : Nat → Hop) :
    Discreet T ([r] ++ (T.download N mime location start hops).requests) := by
  obtain ⟨one, rest⟩ := download_requests known location start hops
  refine ⟨by simp [host], ⟨one, fun r' member => (rest r' member).1⟩, ?_, ?_⟩
  · intro r' member
    rcases mem_cons.mp member with rfl | later
    · exact secure
    · exact (rest r' later).2.1
  · intro r' member header carried secret
    rcases mem_cons.mp member with rfl | later
    · simp [host]
    · simp [(rest r' later).2.2 header carried secret]

theorem requests_discreet (N : Internet) (T : DocumentTransport) (hops : Nat → Hop) (call : DocumentCall) :
    Discreet T (T.requests N hops call) := by
  have nothing : Discreet T [] := discreet_of_services (by simp) (by simp)
  cases call with
  | metadata url start =>
    simp only [requests, metadata]
    split
    · exact nothing
    · refine discreet_of_services get_length fun r member => ?_
      obtain ⟨allowed, -, secure, port, -⟩ := get_request member
      exact ⟨allowed, secure, port⟩
  | inspectStorageHost url mime start =>
    simp only [requests, inspectStorageHost]
    split
    · exact location_discreet url mime true start (hops 0)
    · exact nothing
  | content url mime start again =>
    simp only [requests, content]
    split
    next known =>
      split
      · exact location_discreet url mime false start (hops 0)
      next location found =>
        rcases location_requests url mime false start (hops 0) with ⟨-, e, failed⟩ | ⟨r, one, host, secure⟩
        · rw [failed] at found
          cases found
        · rw [one]
          exact content_discreet known host secure location again _
    · exact nothing

end DocumentTransport

/-- A fetch is confined, and the transport for filing documents discreet, exactly if no resolution has an
    IPv4-compatible address of an IPv4 address that is not global. -/
theorem fetchers_confined_iff (N : Internet) (F : Fetcher) (url : String) (headers : List (String × String))
    (mimeTypes : List String) (start : Int) (hops : Nat → Hop) (T : DocumentTransport) (call : DocumentCall)
    (others : Nat → Hop) : (Confined N F url mimeTypes hops (F.get N url headers mimeTypes start hops) ∧
        Discreet T (T.requests N others call)) ↔
      Undisguised N url hops (F.get N url headers mimeTypes start hops).requests.length := by
  rw [get_confined_iff]
  exact and_iff_left (T.requests_discreet N others call)

end

/-! ### An address that carries the loopback address -/

/-- A network of the special registries: its address, and the number of bits that follow the leading ones. -/
def within (networks : List (Nat × Nat)) (bits : Nat) : Bool :=
  networks.any fun (network, rest) => bits / 2 ^ rest = network / 2 ^ rest

def privateV4 : List (Nat × Nat) :=
  [(0x00000000, 24), (0x0a000000, 24), (0x64400000, 22), (0x7f000000, 24), (0xa9fe0000, 16), (0xac100000, 20),
    (0xc0000000, 8), (0xc0000200, 8), (0xc0a80000, 16), (0xc6120000, 17), (0xc6336400, 8), (0xcb007100, 8),
    (0xf0000000, 28)]

def privateV6 : List (Nat × Nat) :=
  [(0, 0), (1, 0), (0xffff00000000, 32), (0x0064ff9b000100000000000000000000, 80), (0x0100 <<< 112, 64),
    (0x2001 <<< 112, 105), (0x20010db8 <<< 96, 96), (0x2002 <<< 112, 112), (0x3fff <<< 112, 108),
    (0xfc00 <<< 112, 121), (0xfe80 <<< 112, 118)]

def registry : Internet where
  lower value := String.ofList (value.toList.map Char.toLower)
  decimal _ := none
  urlsplit url := if url = "https://api.example.com/data" then
    some { scheme := "https", hostname := some "api.example.com", port := some none, path := "/data" } else none
  urljoin _ _ := none
  ipAddress text := if text = "::7f00:1" then some (.v6 0x7f000001) else none
  isGlobal
    | .v4 bits => !within privateV4 bits.toNat
    | .v6 bits => !within privateV6 bits.toNat
  isMulticast
    | .v4 bits => within [(0xe0000000, 28)] bits.toNat
    | .v6 bits => within [(0xff00 <<< 112, 120)] bits.toNat

def exampleFetcher : Fetcher where
  allowedHosts := ["api.example.com"]
  bounded := by decide

def disguised : Hop where
  beforeDns := 0
  afterDns := 0
  dns _ := .answers ["::7f00:1"]
  response := none
  timesOut := false
  afterResponse := 0

/-- A fetch whose host resolves to the IPv4-compatible form of 127.0.0.1 connects to it. -/
theorem fetcher_connects_to_loopback :
    (exampleFetcher.get registry "https://api.example.com/data" [] ["application/json"] 0 fun _ => disguised).requests.map
        (·.address) = ["::7f00:1"] ∧
      registry.isGlobal (.v4 0x7f000001) = false ∧
      ¬ Confined registry exampleFetcher "https://api.example.com/data" ["application/json"] (fun _ => disguised)
        (exampleFetcher.get registry "https://api.example.com/data" [] ["application/json"] 0 fun _ => disguised) := by
  have connected : (exampleFetcher.get registry "https://api.example.com/data" [] ["application/json"] 0
      fun _ => disguised).requests.map (·.address) = ["::7f00:1"] := by decide +kernel
  refine ⟨connected, by decide +kernel, fun confined => ?_⟩
  have count := congrArg List.length connected
  rw [length_map] at count
  have global := get_confined_iff _ _ _ _ _ _ |>.mp confined 0 (by rw [count]; decide) ["::7f00:1"] rfl "::7f00:1" (by simp)
    (.v6 0x7f000001) (by decide +kernel) 0x7f000001 (by decide +kernel)
  exact absurd global (by decide +kernel)

end Money.Network
