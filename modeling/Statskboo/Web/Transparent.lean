import Statskboo.Web.Cache

/-!
# What a client sees of the response cache

A client may tell the middleware from the bare handlers by the encoding of a body and by the
headers that go with it, and by nothing else.  Pages here are responses whose body is there,
from handlers that answer a GET by its address alone and that leave the content encoding to
the middleware.

Main results:

- Theorem {lit}`coherent_middleware`: the cache only ever holds what the handlers answer.
- Theorem {lit}`transparent_serve`: every response to a sequence of requests shows the
  client what the bare handlers answer.
- Theorem {lit}`transparent_of_run`: so does every response when requests interleave with
  each other and with clears.
-/

namespace Statskboo
namespace Web

open KeyedTable Transition

/-! ## Headers -/

section Headers

variable {headers : HeaderMap} {name name' value : String}

/-- The value of a header. -/
def headerValue (headers : HeaderMap) (name : String) : Option String :=
  (headers.find? fun h => decide (h.1 = name)).map Prod.snd

theorem headerValue_removeHeader : headerValue (removeHeader headers name) name = none := by
  unfold headerValue removeHeader
  rw [List.find?_eq_none.mpr]
  · rfl
  · intro h hmem
    simpa using (List.mem_filter.mp hmem).2

@[simp]
theorem headerValue_insertHeader : headerValue (insertHeader headers name value) name =
    some value := by
  have hnone : (removeHeader headers name).find? (fun h => decide (h.1 = name)) = none :=
    Option.map_eq_none_iff.mp headerValue_removeHeader
  unfold insertHeader headerValue
  rw [List.find?_append, hnone]
  simp

/-- Removing a header that is not there changes nothing. -/
theorem removeHeader_of_headerValue (h : headerValue headers name = none) :
    removeHeader headers name = headers := by
  unfold headerValue at h
  refine List.filter_eq_self.mpr fun p hp => ?_
  simpa using List.find?_eq_none.mp (Option.map_eq_none_iff.mp h) p hp

theorem removeHeader_comm (headers : HeaderMap) (name name' : String) :
    removeHeader (removeHeader headers name) name' =
      removeHeader (removeHeader headers name') name := by
  unfold removeHeader
  rw [List.filter_filter, List.filter_filter]
  simp only [Bool.and_comm]

@[simp]
theorem removeHeader_removeHeader :
    removeHeader (removeHeader headers name) name = removeHeader headers name :=
  removeHeader_of_headerValue headerValue_removeHeader

@[simp]
theorem removeHeader_insertHeader :
    removeHeader (insertHeader headers name value) name = removeHeader headers name := by
  have hnone : removeHeader [(name, value)] name = [] := by
    simp [removeHeader]
  unfold insertHeader
  rw [removeHeader, List.filter_append]
  change removeHeader (removeHeader headers name) name ++ removeHeader [(name, value)] name = _
  rw [removeHeader_removeHeader, hnone, List.append_nil]

/-- Setting a header leaves the removal of another one alone. -/
theorem removeHeader_insertHeader_of_ne (h : name ≠ name') :
    removeHeader (insertHeader headers name value) name' =
      insertHeader (removeHeader headers name') name value := by
  have hkept : removeHeader [(name, value)] name' = [(name, value)] := by
    simp [removeHeader, h]
  unfold insertHeader
  rw [removeHeader_comm, removeHeader, List.filter_append]
  change removeHeader (removeHeader headers name) name' ++ removeHeader [(name, value)] name' = _
  rw [hkept, removeHeader_comm]

theorem headerValue_removeHeader_of_none (h : headerValue headers name = none) :
    headerValue (removeHeader headers name') name = none := by
  rw [← removeHeader_of_headerValue h, removeHeader_comm]
  exact headerValue_removeHeader

end Headers

/-! ## Pages and what a client sees of them -/

/-- A response whose body is there. -/
structure Page where
  status : Nat
  headers : HeaderMap
  body : Bytes
deriving DecidableEq, Repr

/-- The page as a response. -/
def Page.response (page : Page) : Response where
  status := page.status
  headers := page.headers
  body := some page.body

/-- The handlers, by the pages they answer. -/
def pageHandler (pages : Db → Request → Page) : Handler :=
  fun db req => (pages db req).response

/-- The headers that say how a body is sent. -/
def withoutFraming (headers : HeaderMap) : HeaderMap :=
  removeHeader (removeHeader headers "content-length") "transfer-encoding"

/-- The body of a response with its content encoding undone. -/
def Response.decoded (codec : Codec) (resp : Response) : Option Bytes :=
  match headerValue resp.headers "content-encoding" with
  | none => resp.body
  | some value => if value = "br" then resp.body.bind codec.decompress else none

/-- The response shows a client the page: the status, the decoded body and the headers,
apart from those that say how the body is sent. -/
structure Shows (codec : Codec) (resp : Response) (page : Page) : Prop where
  status : resp.status = page.status
  body : resp.decoded codec = some page.body
  headers : removeHeader (withoutFraming resp.headers) "content-encoding" =
    withoutFraming page.headers

/-- What the cache rests on: a GET is answered by its address, the handlers set no content
encoding, and decompression undoes compression. -/
structure Cacheable (codec : Codec) (pages : Request → Page) : Prop where
  byUri : ∀ req req', req.method = "GET" → req'.method = "GET" → req.uri = req'.uri →
    pages req = pages req'
  notEncoded : ∀ req, headerValue (pages req).headers "content-encoding" = none
  decompress_compress : ∀ bytes compressed, codec.compress bytes = some compressed →
    codec.decompress compressed = some bytes

/-- Every stored page is the one that the handlers answer under its key. -/
def Coherent (codec : Codec) (pages : Request → Page) (cache : Cache) : Prop :=
  ∀ key entry, cache.get key = some entry → ∃ req, req.method = "GET" ∧ req.uri = key ∧
    pageEntry codec (pages req).response entry.version = some entry

section Pages

variable {codec : Codec} {pages : Request → Page} {cache : Cache} {req : Request}

/-- A page that is sent as it is shows itself. -/
theorem shows_response (h : Cacheable codec pages) (req : Request) :
    Shows codec (pages req).response (pages req) where
  status := rfl
  body := by
    unfold Response.decoded Page.response
    rw [h.notEncoded]
  headers := by
    refine removeHeader_of_headerValue ?_
    exact headerValue_removeHeader_of_none (headerValue_removeHeader_of_none (h.notEncoded req))

/-- What a stored page consists of. -/
theorem entry_spec (h : Cacheable codec pages) {version : Nat} {entry : CachedEntry}
    (hentry : pageEntry codec (pages req).response version = some entry) :
    (pages req).status = 200 ∧ codec.decompress entry.body = some (pages req).body ∧
      entry.headers = withoutFraming (pages req).headers := by
  obtain ⟨bytes, compressed, hstatus, hbytes, hcompressed, rfl⟩ := exists_of_pageEntry hentry
  cases hbytes
  refine ⟨hstatus, h.decompress_compress _ _ hcompressed, ?_⟩
  exact removeHeader_of_headerValue
    (headerValue_removeHeader_of_none (headerValue_removeHeader_of_none (h.notEncoded req)))

theorem withoutFraming_withoutFraming (headers : HeaderMap) :
    withoutFraming (withoutFraming headers) = withoutFraming headers := by
  unfold withoutFraming
  rw [removeHeader_comm _ "content-length", removeHeader_removeHeader,
    removeHeader_comm _ "transfer-encoding", removeHeader_removeHeader,
    removeHeader_comm]

/-- A stored page that is sent as it is stored shows the page. -/
theorem shows_brotliResponse (h : Cacheable codec pages) {version : Nat} {entry : CachedEntry}
    (hentry : pageEntry codec (pages req).response version = some entry) :
    Shows codec (brotliResponse entry) (pages req) := by
  obtain ⟨hstatus, hbody, hheaders⟩ := entry_spec h hentry
  refine ⟨hstatus.symm, ?_, ?_⟩
  · unfold Response.decoded brotliResponse
    rw [headerValue_insertHeader]
    exact hbody
  · unfold brotliResponse withoutFraming
    dsimp only
    rw [removeHeader_insertHeader_of_ne (by decide), removeHeader_insertHeader_of_ne (by decide),
      removeHeader_insertHeader]
    change removeHeader (withoutFraming entry.headers) "content-encoding" = _
    rw [hheaders, withoutFraming_withoutFraming]
    exact removeHeader_of_headerValue
      (headerValue_removeHeader_of_none (headerValue_removeHeader_of_none (h.notEncoded req)))

/-- A stored page that is decompressed for the client shows the page. -/
theorem shows_decompressed (h : Cacheable codec pages) {version : Nat} {entry : CachedEntry}
    (hentry : pageEntry codec (pages req).response version = some entry) {bytes : Bytes}
    (hbytes : codec.decompress entry.body = some bytes) :
    Shows codec { status := 200, headers := entry.headers, body := some bytes } (pages req) := by
  obtain ⟨hstatus, hbody, hheaders⟩ := entry_spec h hentry
  have hnotEncoded : headerValue entry.headers "content-encoding" = none := by
    rw [hheaders]
    exact headerValue_removeHeader_of_none (headerValue_removeHeader_of_none (h.notEncoded req))
  refine ⟨hstatus.symm, ?_, ?_⟩
  · unfold Response.decoded
    rw [hnotEncoded, ← hbytes, hbody]
  · dsimp only
    rw [hheaders, withoutFraming_withoutFraming, ← hheaders]
    exact removeHeader_of_headerValue hnotEncoded

/-! ## One request -/

theorem coherent_new (maxBytes : Nat) : Coherent codec pages (Cache.new maxBytes) := by
  intro key entry h
  cases h

/-- Only a GET gets past the bypass. -/
theorem method_of_lookup (h : lookup codec cache req ≠ .bypass) : req.method = "GET" := by
  by_contra hmethod
  exact h (if_pos hmethod)

/-- What is found in a coherent cache shows the page. -/
theorem shows_of_hit (h : Cacheable codec pages) (hcache : Coherent codec pages cache)
    {resp : Response} (hlookup : lookup codec cache req = .hit resp) :
    Shows codec resp (pages req) := by
  have hmethod := method_of_lookup (by rw [hlookup]; exact Lookup.noConfusion)
  unfold lookup at hlookup
  rw [if_neg (not_not.mpr hmethod)] at hlookup
  by_cases hpath : req.path = "/search"
  · rw [if_pos hpath] at hlookup
    cases hlookup
  · rw [if_neg hpath] at hlookup
    cases hget : cache.get req.uri with
    | none => simp [hget] at hlookup
    | some entry =>
        obtain ⟨req', hmethod', huri, hentry⟩ := hcache req.uri entry hget
        rw [h.byUri req' req hmethod' hmethod huri] at hentry
        simp only [hget] at hlookup
        split_ifs at hlookup with hbrotli
        · cases hlookup
          exact shows_brotliResponse h hentry
        · cases hbytes : codec.decompress entry.body with
          | none => simp [hbytes] at hlookup
          | some bytes =>
              simp only [hbytes] at hlookup
              cases hlookup
              exact shows_decompressed h hentry hbytes

/-- The response to a request whose page is stored, or not stored, shows the page. -/
theorem shows_store (h : Cacheable codec pages) (cache : Cache) (req : Request) (version : Nat) :
    Shows codec (store codec cache req (pages req).response version).2 (pages req) := by
  have hplain := shows_response h req
  unfold store
  split
  · exact hplain
  · have hbody : (pages req).response.body = some (pages req).body := rfl
    cases hentry : pageEntry codec (pages req).response version with
    | none => simpa only [hbody] using hplain
    | some entry =>
        simp only [hbody]
        split_ifs
        · exact shows_brotliResponse h hentry
        · exact hplain

/-- Storing the page of a GET keeps the cache coherent. -/
theorem coherent_store (hcache : Coherent codec pages cache) (hmethod : req.method = "GET")
    (version : Nat) :
    Coherent codec pages (store codec cache req (pages req).response version).1 := by
  intro key entry hget
  cases hentry : pageEntry codec (pages req).response version with
  | none =>
      rcases get_store hget with ⟨hstored, -⟩ | hold
      · rw [hentry] at hstored
        cases hstored
      · exact hcache key entry hold
  | some entry' =>
      rw [store_of_pageEntry hentry] at hget
      by_cases hkey : key = req.uri
      · rcases Cache.get_set hget with ⟨rfl, -⟩ | hold
        · refine ⟨req, hmethod, hkey.symm, ?_⟩
          rwa [version_of_pageEntry hentry]
        · exact hcache key entry hold
      · refine hcache key entry ?_
        unfold Cache.set at hget
        dsimp only at hget
        split_ifs at hget
        · exact hget
        · rwa [Cache.get, Table.get?_upsert_of_ne _ _ hkey] at hget

/-- The middleware keeps the cache coherent. -/
theorem coherent_middleware {pages : Db → Request → Page} {db : Db}
    (hcache : Coherent codec (pages db) cache) (req : Request) (version : Nat) :
    Coherent codec (pages db) (middleware codec (pageHandler pages) db version cache req).1 := by
  unfold middleware
  cases hlookup : lookup codec cache req with
  | bypass => exact hcache
  | hit resp => exact hcache
  | miss =>
      have hmethod := method_of_lookup (by rw [hlookup]; exact Lookup.noConfusion)
      exact coherent_store hcache hmethod version

/-- The middleware shows the client the page of the handlers. -/
theorem shows_middleware {pages : Db → Request → Page} {db : Db}
    (h : Cacheable codec (pages db)) (hcache : Coherent codec (pages db) cache) (req : Request)
    (version : Nat) :
    Shows codec (middleware codec (pageHandler pages) db version cache req).2 (pages db req) := by
  unfold middleware
  cases hlookup : lookup codec cache req with
  | bypass => exact shows_response h req
  | hit resp => exact shows_of_hit h hcache hlookup
  | miss => exact shows_store h cache req version

end Pages

/-! ## A sequence of requests -/

/-- Answer requests one after the other. -/
def serve (codec : Codec) (handler : Handler) (db : Db) (version : Nat) :
    Cache → List Request → Cache × List Response
  | cache, [] => (cache, [])
  | cache, req :: reqs =>
      let (cache, resp) := middleware codec handler db version cache req
      let (cache, resps) := serve codec handler db version cache reqs
      (cache, resp :: resps)

section Serve

variable {codec : Codec} {pages : Db → Request → Page} {db : Db} {cache : Cache}

/-- Requests to a coherent cache are answered one by one with what shows their pages. -/
theorem shows_serve (h : Cacheable codec (pages db)) (hcache : Coherent codec (pages db) cache)
    (version : Nat) (reqs : List Request) :
    List.Forall₂ (fun resp req => Shows codec resp (pages db req))
      (serve codec (pageHandler pages) db version cache reqs).2 reqs := by
  induction reqs generalizing cache with
  | nil => exact List.Forall₂.nil
  | cons req reqs ih =>
      exact List.Forall₂.cons (shows_middleware h hcache req version)
        (ih (coherent_middleware hcache req version))

/-- Every response to a sequence of requests shows the client the page of the handlers. -/
theorem transparent_serve (h : Cacheable codec (pages db)) (maxBytes version : Nat)
    (reqs : List Request) :
    List.Forall₂ (fun resp req => Shows codec resp (pages db req))
      (serve codec (pageHandler pages) db version (Cache.new maxBytes) reqs).2 reqs :=
  shows_serve h (coherent_new maxBytes) version reqs

end Serve

/-! ## Requests that interleave -/

section Interleaved

variable {codec : Codec} {pages : Db → Request → Page} {db : Db}

/-- The step leaves the database as it is. -/
def KeepsDb (s : System) : Label → Prop
  | .write _ transaction => transaction s.db = s.db
  | _ => True

/-- What is true of a request, by where it stands. -/
def FlightShows (codec : Codec) (pages : Request → Page) (req : Request) : Flight → Prop
  | .arrived => True
  | .bypassing => True
  | .missed => req.method = "GET"
  | .rendered resp _ => resp = (pages req).response ∧ req.method = "GET"
  | .answered resp => Shows codec resp (pages req)

/-- The cache holds what the handlers answer, and so does every request. -/
structure ShowsInv (codec : Codec) (pages : Db → Request → Page) (db : Db) (s : System) :
    Prop where
  unchanged : s.db = db
  coherent : Coherent codec (pages db) s.cache
  flights : ∀ req f, (req, f) ∈ s.flights → FlightShows codec (pages db) req f

variable {s s' : System}

theorem showsInv_start (db : Db) (maxBytes : Nat) :
    ShowsInv codec pages db (start db maxBytes) where
  unchanged := rfl
  coherent := coherent_new maxBytes
  flights req f h := by cases h

/-- A request that moves on. -/
theorem showsInv_setFlight (h : ShowsInv codec pages db s) (i : Nat) {req : Request} {f : Flight}
    (hf : FlightShows codec (pages db) req f) :
    ShowsInv codec pages db (s.setFlight i req f) where
  unchanged := h.unchanged
  coherent := h.coherent
  flights := forall_setFlight h.flights i hf

theorem showsInv_step (hpages : Cacheable codec (pages db)) (s : System) (l : Label) (s' : System)
    (h : ShowsInv codec pages db s) (hkeeps : KeepsDb s l)
    (hstep : step codec (pageHandler pages) s l = some s') : ShowsInv codec pages db s' := by
  cases l with
  | arrive req =>
      cases hstep
      exact ⟨h.unchanged, h.coherent, forall_arrived h.flights trivial⟩
  | lookup i =>
      obtain ⟨req, -, ⟨-, rfl⟩ | ⟨resp, hlookup, rfl⟩ | ⟨hlookup, rfl⟩⟩ := step_lookup hstep
      · exact showsInv_setFlight h i trivial
      · exact showsInv_setFlight h i (shows_of_hit hpages h.coherent hlookup)
      · have hmethod := method_of_lookup (by rw [hlookup]; exact Lookup.noConfusion)
        exact showsInv_setFlight h i hmethod
  | render i =>
      obtain ⟨req, ⟨-, rfl⟩ | ⟨hflight, rfl⟩⟩ := step_render hstep
      · rw [h.unchanged]
        exact showsInv_setFlight h i (shows_response hpages req)
      · have hmethod : req.method = "GET" := h.flights req _ (List.mem_of_getElem? hflight)
        rw [h.unchanged]
        exact showsInv_setFlight h i ⟨rfl, hmethod⟩
  | store i =>
      obtain ⟨req, resp, version, hflight, rfl⟩ := step_store hstep
      obtain ⟨rfl, hmethod⟩ : resp = (pages db req).response ∧ req.method = "GET" :=
        h.flights req _ (List.mem_of_getElem? hflight)
      have hset := showsInv_setFlight h i
        (f := .answered (Web.store codec s.cache req (pages db req).response version).2)
        (shows_store hpages s.cache req version)
      exact ⟨hset.unchanged, coherent_store h.coherent hmethod version, hset.flights⟩
  | write l transaction =>
      cases hstep
      have hdb : transaction s.db = db :=
        (show transaction s.db = s.db from hkeeps).trans h.unchanged
      exact ⟨hdb, h.coherent, h.flights⟩
  | clear l =>
      cases hstep
      exact ⟨h.unchanged, coherent_new s.cache.maxBytes, h.flights⟩

/-- Every response of a run that leaves the database as it is shows the client the page of
the handlers, however requests and clears interleave. -/
theorem transparent_of_run (hpages : Cacheable codec (pages db)) {maxBytes : Nat}
    {labels : List Label}
    (hkeeps : EveryStep (step codec (pageHandler pages)) KeepsDb (start db maxBytes) labels)
    (hrun : run (step codec (pageHandler pages)) (start db maxBytes) labels = some s)
    {req : Request} {resp : Response} (hmem : (req, .answered resp) ∈ s.flights) :
    Shows codec resp (pages db req) :=
  (run_invariant_of_everyStep (showsInv_step hpages) (showsInv_start db maxBytes) hkeeps
    hrun).flights req _ hmem

end Interleaved

section Example

/-- The bodies with a byte in front of them. -/
def markedCodec : Codec where
  compress bytes := some (0 :: bytes)
  decompress
    | [] => none
    | _ :: bytes => some bytes

/-- A page that is not compressed, with the titles of the teams. -/
def leaguesPage : Db → Request → Page := fun db _ =>
  { status := 200
    headers := [("content-type", "text/html; charset=utf-8"), ("content-length", "5")]
    body := db.wftdaTeams.rows.flatMap fun r => r.2.title.toList.map fun c => UInt8.ofNat c.toNat }

/-- A database with one team. -/
def alphaDb : Db :=
  Wftda.insertStub Db.empty (1, "Alpha")

theorem cacheable_leaguesPage : Cacheable markedCodec (leaguesPage alphaDb) where
  byUri _ _ _ _ _ := rfl
  notEncoded _ := by simp [leaguesPage, headerValue]
  decompress_compress bytes compressed h := by
    cases h
    rfl

/-- Two clients ask for the list of leagues, of which only the first accepts the encoding. -/
def twoClients : List Request :=
  [getLeagues, { getLeagues with acceptEncoding := none }]

theorem transparent_twoClients :
    List.Forall₂ (fun resp req => Shows markedCodec resp (leaguesPage alphaDb req))
      (serve markedCodec (pageHandler leaguesPage) alphaDb 0 (Cache.new 1000) twoClients).2
      twoClients :=
  transparent_serve cacheable_leaguesPage 1000 0 twoClients

end Example

end Web
end Statskboo
