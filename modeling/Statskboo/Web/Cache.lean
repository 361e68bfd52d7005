import Statskboo.Ingest.Stages
import Statskboo.Lib.Run
import Statskboo.Text
import Mathlib.Algebra.Order.BigOperators.Group.List

/-!
# The response cache

Rendered pages are kept under their address until a background loop has written to the
database and clears the cache.  The middleware looks an address up, runs the handler and
stores the page in three separate steps.  Between them any number of other requests and
both background loops take their own steps.

A clear throws away what is in the cache.  It does not reach a page that has been
rendered and not been stored yet.

Main results:

- Theorem {lit}`noStale_of_inTime`: no stale page survives a clear, in every run in which
  no clear overtakes such a page.
- Theorem {lit}`stale_of_late`: a single clear that overtakes one is enough for a stale
  page to stay.
- Theorem {lit}`run_alone`: a request that runs alone has the effect of the middleware.
-/

namespace Statskboo
namespace Web

open KeyedTable Transition

/-! ## The store of pages -/

/-- Raw bytes of a body. -/
abbrev Bytes := List UInt8

/-- Header names and values. -/
abbrev HeaderMap := List (String × String)

/-- A stored page: its headers and its compressed body.  The version says how many writes
the database had seen when the page was rendered; no code reads it. -/
structure CachedEntry where
  headers : HeaderMap
  body : Bytes
  version : Nat
deriving DecidableEq, Repr

/-- The pages under their keys, with the bytes they use. -/
structure Cache where
  entries : Table String CachedEntry
  usedBytes : Nat
  maxBytes : Nat
  used : usedBytes = (entries.rows.map fun r => r.2.body.length).sum
  fits : usedBytes ≤ maxBytes

namespace Cache

/-- A cache without pages. -/
def new (maxBytes : Nat) : Cache where
  entries := Table.empty
  usedBytes := 0
  maxBytes := maxBytes
  used := rfl
  fits := Nat.zero_le _

/-- The page under a key. -/
def get (c : Cache) (key : String) : Option CachedEntry :=
  c.entries.get? key

/-- The size of the page that a new one under the key replaces. -/
def oldSize (c : Cache) (key : String) : Nat :=
  ((c.entries.get? key).map fun e => e.body.length).getD 0

theorem oldSize_le (c : Cache) (key : String) : c.oldSize key ≤ c.usedBytes := by
  unfold oldSize
  cases hget : c.entries.get? key with
  | none => exact Nat.zero_le _
  | some e =>
      rw [c.used]
      exact List.le_sum_of_mem (List.mem_map_of_mem (Table.mem_rows_iff.mpr hget))

theorem usedBytes_upsert (c : Cache) (key : String) (entry : CachedEntry) :
    c.usedBytes - c.oldSize key + entry.body.length =
      ((c.entries.upsert key entry).rows.map fun r => r.2.body.length).sum := by
  have hsum := Table.sum_map_upsert c.entries key entry fun e => e.body.length
  have hle := c.oldSize_le key
  have hused := c.used
  unfold oldSize at hle ⊢
  omega

/-- Store a page, unless it does not fit. -/
def set (c : Cache) (key : String) (entry : CachedEntry) : Cache :=
  let newUsed := c.usedBytes - c.oldSize key + entry.body.length
  if h : c.maxBytes < newUsed then c
  else
    { c with
      entries := c.entries.upsert key entry
      usedBytes := newUsed
      used := c.usedBytes_upsert key entry
      fits := not_lt.mp h }

/-- Drop all pages. -/
def clear (c : Cache) : Cache :=
  new c.maxBytes

@[simp]
theorem get_clear (c : Cache) (key : String) : c.clear.get key = none :=
  rfl

@[simp]
theorem maxBytes_clear (c : Cache) : c.clear.maxBytes = c.maxBytes :=
  rfl

@[simp]
theorem maxBytes_set (c : Cache) (key : String) (entry : CachedEntry) :
    (c.set key entry).maxBytes = c.maxBytes := by
  unfold set
  dsimp only
  split_ifs <;> rfl

/-- What is found after storing a page is that page, which fits, or was there before. -/
theorem get_set {c : Cache} {key key' : String} {entry entry' : CachedEntry}
    (h : (c.set key entry).get key' = some entry') :
    (entry' = entry ∧ entry.body.length ≤ c.maxBytes) ∨ c.get key' = some entry' := by
  unfold set get at h
  dsimp only at h
  split_ifs at h with hfull
  · exact Or.inr h
  · rw [Table.get?_upsert] at h
    split_ifs at h
    · exact Or.inl ⟨(Option.some.inj h).symm, by omega⟩
    · exact Or.inr h

/-- A page that fits is stored in a cache that has been cleared. -/
theorem get_set_clear {c : Cache} {entry : CachedEntry} (key : String)
    (h : entry.body.length ≤ c.maxBytes) : (c.clear.set key entry).get key = some entry := by
  have hnew : ¬ c.clear.maxBytes < c.clear.usedBytes - c.clear.oldSize key + entry.body.length := by
    have hold : c.clear.usedBytes = 0 := rfl
    rw [maxBytes_clear, hold]
    omega
  unfold set get
  dsimp only
  rw [dif_neg hnew, Table.get?_upsert_self]

end Cache

/-! ## The middleware -/

/-- A request, with the {lit}`accept-encoding` header if it is text. -/
structure Request where
  method : String
  uri : String
  path : String
  acceptEncoding : Option String
deriving DecidableEq, Repr

/-- A response; a body that cannot be read is none. -/
structure Response where
  status : Nat
  headers : HeaderMap
  body : Option Bytes
deriving DecidableEq, Repr

/-- The compression that the middleware uses. -/
structure Codec where
  compress : Bytes → Option Bytes
  decompress : Bytes → Option Bytes

/-- The handlers: what a request is answered from the database. -/
abbrev Handler := Db → Request → Response

/-- Larger bodies are not stored. -/
def maxCacheableBodyBytes : Nat :=
  4 * 1024 * 1024

/-- Whether the client lists {lit}`br` among the encodings it accepts. -/
def clientAcceptsBrotli (req : Request) : Bool :=
  match req.acceptEncoding with
  | none => false
  | some s => (s.toList.splitOn ',').any fun part =>
      decide (Text.trim ((part.splitOn ';').headD []) = "br".toList)

/-- {lit}`HeaderMap::remove`. -/
def removeHeader (headers : HeaderMap) (name : String) : HeaderMap :=
  headers.filter fun h => decide (h.1 ≠ name)

/-- {lit}`HeaderMap::insert`. -/
def insertHeader (headers : HeaderMap) (name value : String) : HeaderMap :=
  removeHeader headers name ++ [(name, value)]

/-- A stored page sent as it is stored. -/
def brotliResponse (entry : CachedEntry) : Response where
  status := 200
  headers := insertHeader entry.headers "content-encoding" "br"
  body := some entry.body

/-- What the middleware makes of a request before it runs the handler. -/
inductive Lookup where
  | bypass
  | hit (resp : Response)
  | miss
deriving DecidableEq, Repr

/-- The page that a response is stored as, if it is stored. -/
def pageEntry (codec : Codec) (resp : Response) (version : Nat) : Option CachedEntry :=
  if resp.status ≠ 200 then none
  else do
    let bytes ← resp.body
    if bytes.length ≤ maxCacheableBodyBytes then
      let compressed ← codec.compress bytes
      let headers := removeHeader (removeHeader (removeHeader resp.headers "content-length")
        "transfer-encoding") "content-encoding"
      return { headers, body := compressed, version }
    else none

/-- Look for a stored page; other methods and the search are not cached. -/
def lookup (codec : Codec) (cache : Cache) (req : Request) : Lookup :=
  if req.method ≠ "GET" then .bypass
  else if req.path = "/search" then .bypass
  else
    match cache.get req.uri with
    | none => .miss
    | some entry =>
        if clientAcceptsBrotli req then .hit (brotliResponse entry)
        else
          match codec.decompress entry.body with
          | some bytes => .hit { status := 200, headers := entry.headers, body := some bytes }
          | none => .miss

/-- Store the page of a response, and answer the request. -/
def store (codec : Codec) (cache : Cache) (req : Request) (resp : Response) (version : Nat) :
    Cache × Response :=
  if resp.status ≠ 200 then (cache, resp)
  else
    match resp.body with
    | none => (cache, { status := 500, headers := [], body := some [] })
    | some _ =>
        match pageEntry codec resp version with
        | none => (cache, resp)
        | some entry =>
            (cache.set req.uri entry,
              if clientAcceptsBrotli req then brotliResponse entry else resp)

/-- The middleware without anything in between. -/
def middleware (codec : Codec) (handler : Handler) (db : Db) (version : Nat) (cache : Cache)
    (req : Request) : Cache × Response :=
  match lookup codec cache req with
  | .bypass => (cache, handler db req)
  | .hit resp => (cache, resp)
  | .miss => store codec cache req (handler db req) version

@[simp]
theorem maxBytes_store (codec : Codec) (cache : Cache) (req : Request) (resp : Response)
    (version : Nat) : (store codec cache req resp version).1.maxBytes = cache.maxBytes := by
  unfold store
  split
  · rfl
  · split
    · rfl
    · split
      · rfl
      · exact Cache.maxBytes_set ..

/-- After storing a response every page was there before or is the page of the response,
which fits. -/
theorem get_store {codec : Codec} {cache : Cache} {req : Request} {resp : Response}
    {version : Nat} {key : String} {entry : CachedEntry}
    (h : (store codec cache req resp version).1.get key = some entry) :
    (pageEntry codec resp version = some entry ∧ entry.body.length ≤ cache.maxBytes) ∨
      cache.get key = some entry := by
  unfold store at h
  split at h
  · exact Or.inr h
  · cases hbody : resp.body with
    | none =>
        rw [hbody] at h
        exact Or.inr h
    | some bytes =>
        cases hentry : pageEntry codec resp version with
        | none =>
            simp only [hbody, hentry] at h
            exact Or.inr h
        | some entry' =>
            simp only [hbody, hentry] at h
            rcases Cache.get_set h with ⟨rfl, hfits⟩ | hold
            · exact Or.inl ⟨rfl, hfits⟩
            · exact Or.inr hold

/-- What a response is stored as, and from. -/
theorem exists_of_pageEntry {codec : Codec} {resp : Response} {version : Nat}
    {entry : CachedEntry} (h : pageEntry codec resp version = some entry) :
    ∃ bytes compressed, resp.status = 200 ∧ resp.body = some bytes ∧
      codec.compress bytes = some compressed ∧
      entry =
        { headers := removeHeader (removeHeader (removeHeader resp.headers "content-length")
            "transfer-encoding") "content-encoding"
          body := compressed
          version } := by
  unfold pageEntry at h
  split_ifs at h with hstatus
  obtain ⟨bytes, hbody, hrest⟩ := Option.bind_eq_some_iff.mp h
  split_ifs at hrest
  obtain ⟨compressed, hcompressed, hdone⟩ := Option.bind_eq_some_iff.mp hrest
  cases hdone
  exact ⟨bytes, compressed, not_not.mp hstatus, hbody, hcompressed, rfl⟩

/-- A page is stored from a response of status 200 with a body that can be read. -/
theorem store_of_pageEntry {codec : Codec} {cache : Cache} {req : Request} {resp : Response}
    {version : Nat} {entry : CachedEntry} (h : pageEntry codec resp version = some entry) :
    (store codec cache req resp version).1 = cache.set req.uri entry := by
  obtain ⟨bytes, compressed, hstatus, hbody, -⟩ := exists_of_pageEntry h
  simp [store, hstatus, hbody, h]

/-- The page of a response has the version at which it was rendered. -/
theorem version_of_pageEntry {codec : Codec} {resp : Response} {version : Nat}
    {entry : CachedEntry} (h : pageEntry codec resp version = some entry) :
    entry.version = version := by
  obtain ⟨bytes, compressed, -, -, -, rfl⟩ := exists_of_pageEntry h
  rfl

/-! ## Requests and background loops -/

/-- Where a request stands. -/
inductive Flight where
  | arrived
  | bypassing
  | missed
  | rendered (resp : Response) (version : Nat)
  | answered (resp : Response)
deriving DecidableEq, Repr

/-- The server: the database with the number of writes it has seen, the cache, the
requests, and the writes of each loop that wait for its clear. -/
structure System where
  db : Db
  writes : Nat
  cache : Cache
  flights : List (Request × Flight)
  waiting : Loop → List Nat

/-- What happens at a step. -/
inductive Label where
  | arrive (req : Request)
  | lookup (i : Nat)
  | render (i : Nat)
  | store (i : Nat)
  | write (l : Loop) (transaction : Db → Db)
  | clear (l : Loop)

/-- An empty cache, and nobody has asked for anything. -/
def start (db : Db) (maxBytes : Nat) : System where
  db := db
  writes := 0
  cache := Cache.new maxBytes
  flights := []
  waiting := fun _ => []

/-- A request moves on. -/
def System.setFlight (s : System) (i : Nat) (req : Request) (f : Flight) : System :=
  { s with flights := s.flights.set i (req, f) }

section Flights

variable {s : System} {P : Request → Flight → Prop}

/-- What holds of all requests holds when one of them moves on so. -/
theorem forall_setFlight (h : ∀ req f, (req, f) ∈ s.flights → P req f) (i : Nat) {req : Request}
    {f : Flight} (hf : P req f) :
    ∀ req' f', (req', f') ∈ (s.setFlight i req f).flights → P req' f' := by
  intro req' f' hmem
  rcases List.mem_or_eq_of_mem_set hmem with hmem | heq
  · exact h req' f' hmem
  · cases heq
    exact hf

/-- What holds of all requests holds when another one arrives so. -/
theorem forall_arrived (h : ∀ req f, (req, f) ∈ s.flights → P req f) {req : Request}
    (hf : P req .arrived) :
    ∀ req' f', (req', f') ∈ s.flights ++ [(req, .arrived)] → P req' f' := by
  intro req' f' hmem
  rcases List.mem_append.mp hmem with hmem | hmem
  · exact h req' f' hmem
  · obtain ⟨rfl, rfl⟩ := Prod.mk.inj (List.mem_singleton.mp hmem)
    exact hf

end Flights

/-- The effect of a step. -/
def step (codec : Codec) (handler : Handler) (s : System) : Label → Option System
  | .arrive req => some { s with flights := s.flights ++ [(req, .arrived)] }
  | .lookup i =>
      match s.flights[i]? with
      | some (req, .arrived) =>
          match Web.lookup codec s.cache req with
          | .bypass => some (s.setFlight i req .bypassing)
          | .hit resp => some (s.setFlight i req (.answered resp))
          | .miss => some (s.setFlight i req .missed)
      | _ => none
  | .render i =>
      match s.flights[i]? with
      | some (req, .bypassing) => some (s.setFlight i req (.answered (handler s.db req)))
      | some (req, .missed) => some (s.setFlight i req (.rendered (handler s.db req) s.writes))
      | _ => none
  | .store i =>
      match s.flights[i]? with
      | some (req, .rendered resp version) =>
          let (cache, resp') := Web.store codec s.cache req resp version
          some { s.setFlight i req (.answered resp') with cache }
      | _ => none
  | .write l transaction =>
      some { s with
        db := transaction s.db
        writes := s.writes + 1
        waiting := fun l' => if l' = l then s.writes :: s.waiting l' else s.waiting l' }
  | .clear l =>
      some { s with
        cache := s.cache.clear
        waiting := fun l' => if l' = l then [] else s.waiting l' }

/-! ## What a clear promises -/

/-- The clear of a write has completed. -/
def System.Cleared (s : System) (k : Nat) : Prop :=
  k < s.writes ∧ ∀ l, k ∉ s.waiting l

/-- While no write waits for its clear, every stored page was rendered from a database
that includes every write whose clear has completed. -/
def NoStale (s : System) : Prop :=
  (∀ l, s.waiting l = []) →
    ∀ key entry, s.cache.get key = some entry → ∀ k, s.Cleared k → k < entry.version

/-- A clear comes in time when every page that has been rendered and may still be stored
includes the writes that wait for this clear. -/
def InTime (codec : Codec) (s : System) : Label → Prop
  | .clear l => ∀ req resp version entry, (req, .rendered resp version) ∈ s.flights →
      pageEntry codec resp version = some entry → entry.body.length ≤ s.cache.maxBytes →
        ∀ k ∈ s.waiting l, k < version
  | _ => True

/-! ## The invariant -/

/-- Stored pages, and pages that may still be stored, include every write whose clear has
completed. -/
structure Inv (codec : Codec) (s : System) : Prop where
  counted : ∀ l, ∀ k ∈ s.waiting l, k < s.writes
  cached : ∀ key entry, s.cache.get key = some entry → ∀ k, s.Cleared k → k < entry.version
  inFlight : ∀ req resp version entry, (req, .rendered resp version) ∈ s.flights →
    pageEntry codec resp version = some entry → entry.body.length ≤ s.cache.maxBytes →
      ∀ k, s.Cleared k → k < version

variable {codec : Codec} {handler : Handler} {s s' : System}

theorem inv_start (db : Db) (maxBytes : Nat) : Inv codec (start db maxBytes) where
  counted l k hk := by cases hk
  cached key entry h := by cases h
  inFlight req resp version entry h := by cases h

theorem noStale_of_inv (h : Inv codec s) : NoStale s :=
  fun _ => h.cached

/-- A step that moves one request on and leaves the rest alone. -/
theorem inv_setFlight (h : Inv codec s) (i : Nat) (req : Request) {f : Flight}
    (hf : ∀ resp version, f = .rendered resp version → version = s.writes) :
    Inv codec (s.setFlight i req f) where
  counted := h.counted
  cached := h.cached
  inFlight req' resp version entry hmem hentry hfits k hk := by
    rcases List.mem_or_eq_of_mem_set hmem with hmem | heq
    · exact h.inFlight req' resp version entry hmem hentry hfits k hk
    · rw [hf resp version (Prod.mk.inj heq).2.symm]
      exact hk.1

theorem inv_arrive (h : Inv codec s) (req : Request) :
    Inv codec { s with flights := s.flights ++ [(req, .arrived)] } where
  counted := h.counted
  cached := h.cached
  inFlight req' resp version entry hmem := by
    rcases List.mem_append.mp hmem with hmem | hmem
    · exact h.inFlight req' resp version entry hmem
    · simp at hmem

theorem inv_store (h : Inv codec s) {i : Nat} {req : Request} {resp : Response} {version : Nat}
    (hflight : s.flights[i]? = some (req, .rendered resp version)) :
    Inv codec { s.setFlight i req (.answered (Web.store codec s.cache req resp version).2) with
      cache := (Web.store codec s.cache req resp version).1 } where
  counted := h.counted
  cached key entry hget k hk := by
    rcases get_store hget with ⟨hentry, hfits⟩ | hold
    · rw [version_of_pageEntry hentry]
      exact h.inFlight req resp version entry (List.mem_of_getElem? hflight) hentry hfits k hk
    · exact h.cached key entry hold k hk
  inFlight req' resp' version' entry hmem hentry hfits k hk := by
    rw [maxBytes_store] at hfits
    rcases List.mem_or_eq_of_mem_set hmem with hmem | heq
    · exact h.inFlight req' resp' version' entry hmem hentry hfits k hk
    · cases heq

/-- A write that has not been cleared adds nothing to what pages must include. -/
theorem cleared_of_cleared_write {db : Db} {l : Loop} {k : Nat}
    (hk : System.Cleared { s with
      db
      writes := s.writes + 1
      waiting := fun l' => if l' = l then s.writes :: s.waiting l' else s.waiting l' } k) :
    s.Cleared k := by
  obtain ⟨hlt, hnot⟩ := hk
  have hne : k ≠ s.writes := by
    intro heq
    apply hnot l
    simp [heq]
  refine ⟨by dsimp only at hlt; omega, ?_⟩
  intro l' hmem
  apply hnot l'
  by_cases hl : l' = l
  · simp [hl ▸ hmem, hl]
  · simpa [hl] using hmem

theorem inv_write (h : Inv codec s) (l : Loop) (transaction : Db → Db) :
    Inv codec { s with
      db := transaction s.db
      writes := s.writes + 1
      waiting := fun l' => if l' = l then s.writes :: s.waiting l' else s.waiting l' } where
  counted l' k hk := by
    dsimp only at hk ⊢
    split_ifs at hk
    · rcases List.mem_cons.mp hk with rfl | hk
      · omega
      · have hlt := h.counted l' k hk
        omega
    · have hlt := h.counted l' k hk
      omega
  cached key entry hget k hk := h.cached key entry hget k (cleared_of_cleared_write hk)
  inFlight req resp version entry hmem hentry hfits k hk :=
    h.inFlight req resp version entry hmem hentry hfits k (cleared_of_cleared_write hk)

/-- A write that a clear completes was waiting for this clear or had been cleared. -/
theorem cleared_or_waiting {cache : Cache} {l : Loop} {k : Nat}
    (hk : System.Cleared { s with
      cache
      waiting := fun l' => if l' = l then [] else s.waiting l' } k) :
    s.Cleared k ∨ k ∈ s.waiting l := by
  by_cases hmem : k ∈ s.waiting l
  · exact Or.inr hmem
  · left
    refine ⟨hk.1, ?_⟩
    intro l' hl'
    by_cases hl : l' = l
    · exact hmem (hl ▸ hl')
    · apply hk.2 l'
      simpa [hl] using hl'

theorem inv_clear (h : Inv codec s) {l : Loop} (htime : InTime codec s (.clear l)) :
    Inv codec { s with
      cache := s.cache.clear
      waiting := fun l' => if l' = l then [] else s.waiting l' } where
  counted l' k hk := by
    dsimp only at hk
    split_ifs at hk
    · cases hk
    · exact h.counted l' k hk
  cached key entry hget := by
    rw [Cache.get_clear] at hget
    cases hget
  inFlight req resp version entry hmem hentry hfits k hk := by
    rw [Cache.maxBytes_clear] at hfits
    rcases cleared_or_waiting hk with hold | hwaiting
    · exact h.inFlight req resp version entry hmem hentry hfits k hold
    · exact htime req resp version entry hmem hentry hfits k hwaiting

/-! ## What a request does -/

/-- A request that looks its page up bypasses the cache, is answered from it, or misses. -/
theorem step_lookup {i : Nat} (hstep : step codec handler s (.lookup i) = some s') :
    ∃ req, s.flights[i]? = some (req, .arrived) ∧
      (Web.lookup codec s.cache req = .bypass ∧ s' = s.setFlight i req .bypassing ∨
        (∃ resp, Web.lookup codec s.cache req = .hit resp ∧
          s' = s.setFlight i req (.answered resp)) ∨
        Web.lookup codec s.cache req = .miss ∧ s' = s.setFlight i req .missed) := by
  simp only [step] at hstep
  split at hstep
  · next req hflight =>
      refine ⟨req, hflight, ?_⟩
      split at hstep
      · next hlookup =>
          cases hstep
          exact Or.inl ⟨hlookup, rfl⟩
      · next resp hlookup =>
          cases hstep
          exact Or.inr (Or.inl ⟨resp, hlookup, rfl⟩)
      · next hlookup =>
          cases hstep
          exact Or.inr (Or.inr ⟨hlookup, rfl⟩)
  · cases hstep

/-- A page is rendered for a request that bypasses the cache or has missed. -/
theorem step_render {i : Nat} (hstep : step codec handler s (.render i) = some s') :
    ∃ req, s.flights[i]? = some (req, .bypassing) ∧
        s' = s.setFlight i req (.answered (handler s.db req)) ∨
      s.flights[i]? = some (req, .missed) ∧
        s' = s.setFlight i req (.rendered (handler s.db req) s.writes) := by
  simp only [step] at hstep
  split at hstep
  · next req hflight =>
      cases hstep
      exact ⟨req, Or.inl ⟨hflight, rfl⟩⟩
  · next req hflight =>
      cases hstep
      exact ⟨req, Or.inr ⟨hflight, rfl⟩⟩
  · cases hstep

/-- A rendered page is stored, and the request is answered. -/
theorem step_store {i : Nat} (hstep : step codec handler s (.store i) = some s') :
    ∃ req resp version, s.flights[i]? = some (req, .rendered resp version) ∧
      s' = { s.setFlight i req (.answered (Web.store codec s.cache req resp version).2) with
        cache := (Web.store codec s.cache req resp version).1 } := by
  simp only [step] at hstep
  split at hstep
  · next req resp version hflight =>
      cases hstep
      exact ⟨req, resp, version, hflight, rfl⟩
  · cases hstep

/-! ## Every run -/

/-- Every step that comes in time keeps the invariant. -/
theorem inv_step (s : System) (l : Label) (s' : System) (h : Inv codec s)
    (htime : InTime codec s l) (hstep : step codec handler s l = some s') : Inv codec s' := by
  cases l with
  | arrive req =>
      cases hstep
      exact inv_arrive h req
  | lookup i =>
      obtain ⟨req, -, ⟨-, rfl⟩ | ⟨resp, -, rfl⟩ | ⟨-, rfl⟩⟩ := step_lookup hstep
      · exact inv_setFlight h i req fun _ _ => Flight.noConfusion
      · exact inv_setFlight h i req fun _ _ => Flight.noConfusion
      · exact inv_setFlight h i req fun _ _ => Flight.noConfusion
  | render i =>
      obtain ⟨req, ⟨-, rfl⟩ | ⟨-, rfl⟩⟩ := step_render hstep
      · exact inv_setFlight h i req fun _ _ => Flight.noConfusion
      · refine inv_setFlight h i req ?_
        intro resp version heq
        cases heq
        rfl
  | store i =>
      obtain ⟨req, resp, version, hflight, rfl⟩ := step_store hstep
      exact inv_store h hflight
  | write l transaction =>
      cases hstep
      exact inv_write h l transaction
  | clear l =>
      cases hstep
      exact inv_clear h htime

/-- In every run whose clears all come in time, no stale page survives a clear. -/
theorem noStale_of_inTime {db : Db} {maxBytes : Nat} {labels : List Label}
    (htime : EveryStep (step codec handler) (InTime codec) (start db maxBytes) labels)
    (hrun : run (step codec handler) (start db maxBytes) labels = some s) : NoStale s :=
  noStale_of_inv (run_invariant_of_everyStep inv_step (inv_start db maxBytes) htime hrun)

/-! ## A clear that comes late -/

/-- A single clear that overtakes a rendered page is enough: the page can still be stored
once both loops have cleared, and it stays without the writes of this clear. -/
theorem stale_of_late (h : Inv codec s) {l : Loop} (hlate : ¬ InTime codec s (.clear l)) :
    ∃ labels t, run (step codec handler) s (.clear l :: labels) = some t ∧ ¬ NoStale t := by
  simp only [InTime, not_forall] at hlate
  obtain ⟨req, resp, version, entry, hmem, hentry, hfits, k, hk, hlt⟩ := hlate
  obtain ⟨i, hi⟩ := List.getElem?_of_mem hmem
  refine ⟨[.clear l.other, .store i], _, by simp [run_cons, step, hi]; rfl, ?_⟩
  intro hnone
  have hwaiting : ∀ l', (if l' = l.other then []
      else if l' = l then [] else s.waiting l') = [] := by
    intro l'
    cases l <;> cases l' <;> rfl
  refine hlt ?_
  rw [← version_of_pageEntry hentry]
  refine hnone hwaiting req.uri entry ?_ k ⟨h.counted l k hk, ?_⟩
  · dsimp only [System.setFlight]
    rw [store_of_pageEntry hentry]
    exact Cache.get_set_clear req.uri hfits
  · intro l'
    dsimp only [System.setFlight]
    rw [hwaiting l']
    exact List.not_mem_nil

section Example

/-- Bodies are stored as they are. -/
def plainCodec : Codec where
  compress := some
  decompress := some

/-- A page with the titles of the teams. -/
def titlesPage : Handler := fun db _ =>
  { status := 200
    headers := [("content-type", "text/html; charset=utf-8")]
    body := some (db.wftdaTeams.rows.flatMap fun r =>
      r.2.title.toList.map fun c => UInt8.ofNat c.toNat) }

/-- Somebody asks for the list of leagues. -/
def getLeagues : Request where
  method := "GET"
  uri := "/leagues"
  path := "/leagues"
  acceptEncoding := some "gzip, br"

/-- The sync brings in a team. -/
def syncAlpha : Label :=
  .write .wftdaSync fun db => Wftda.insertStub db (1, "Alpha")

/-- The page is rendered before the sync and stored after the clear. -/
def storedLate : List Label :=
  [.arrive getLeagues, .lookup 0, .render 0, syncAlpha, .clear .wftdaSync, .store 0]

/-- The page is stored before the clear, and rendered again after it. -/
def storedInTime : List Label :=
  [.arrive getLeagues, .lookup 0, .render 0, syncAlpha, .store 0, .clear .wftdaSync,
    .arrive getLeagues, .lookup 1, .render 1, .store 1]

/-- The state after a run from an empty server. -/
def stateAfter (labels : List Label) : System :=
  (run (step plainCodec titlesPage) (start Db.empty 1000) labels).getD (start Db.empty 1000)

theorem run_stateAfter {labels : List Label}
    (h : (run (step plainCodec titlesPage) (start Db.empty 1000) labels).isSome = true) :
    run (step plainCodec titlesPage) (start Db.empty 1000) labels =
      some (stateAfter labels) :=
  run_eq_some_getD h _

/-- The cache keeps the page without the team, although the write has been cleared. -/
theorem not_noStale_of_run :
    ¬ ∀ labels s, run (step plainCodec titlesPage) (start Db.empty 1000) labels = some s →
      NoStale s := by
  intro hall
  have hstale := hall storedLate _ (run_stateAfter (by decide +kernel))
  have hget : (stateAfter storedLate).cache.get "/leagues" =
      some ⟨[("content-type", "text/html; charset=utf-8")], [], 0⟩ := by
    decide +kernel
  have hwaiting : ∀ l, (stateAfter storedLate).waiting l = [] := by
    intro l
    cases l <;> decide +kernel
  have hcleared : (stateAfter storedLate).Cleared 0 := by
    refine ⟨by decide +kernel, ?_⟩
    intro l
    rw [hwaiting l]
    exact List.not_mem_nil
  exact absurd (hstale hwaiting "/leagues" _ hget 0 hcleared) (lt_irrefl 0)

/-- The clears of the run that stores in time meet the condition. -/
theorem everyStep_storedInTime :
    EveryStep (step plainCodec titlesPage) (InTime plainCodec) (start Db.empty 1000)
      storedInTime := by
  refine ⟨trivial, fun s₁ h₁ => ⟨trivial, fun s₂ h₂ => ⟨trivial, fun s₃ h₃ => ?_⟩⟩⟩
  cases h₁
  cases h₂
  cases h₃
  refine ⟨trivial, fun s₄ h₄ => ⟨trivial, fun s₅ h₅ => ?_⟩⟩
  cases h₄
  cases h₅
  refine ⟨?_, fun s₆ _ => ⟨trivial, fun s₇ _ => ⟨trivial, fun s₈ _ => ⟨trivial, fun s₉ _ =>
    ⟨trivial, fun _ _ => trivial⟩⟩⟩⟩⟩
  intro req resp version entry hmem
  rcases List.mem_singleton.mp hmem with heq
  cases heq

theorem noStale_storedInTime :
    NoStale (stateAfter storedInTime) ∧
      (stateAfter storedInTime).cache.get "/leagues" =
        some ⟨[("content-type", "text/html; charset=utf-8")], [65, 108, 112, 104, 97], 1⟩ :=
  ⟨noStale_of_inTime everyStep_storedInTime (run_stateAfter (by decide +kernel)),
    by decide +kernel⟩

end Example

/-! ## A request alone -/

/-- A request that runs alone has the effect of the middleware. -/
theorem run_alone (db : Db) (writes : Nat) (cache : Cache) (waiting : Loop → List Nat)
    (req : Request) :
    ∃ labels, run (step codec handler) ⟨db, writes, cache, [], waiting⟩ labels =
      some ⟨db, writes, (middleware codec handler db writes cache req).1,
        [(req, .answered (middleware codec handler db writes cache req).2)], waiting⟩ := by
  unfold middleware
  cases hlookup : Web.lookup codec cache req with
  | bypass =>
      refine ⟨[.arrive req, .lookup 0, .render 0], ?_⟩
      simp [run_cons, step, hlookup, System.setFlight]
  | hit resp =>
      refine ⟨[.arrive req, .lookup 0], ?_⟩
      simp [run_cons, step, hlookup, System.setFlight]
  | miss =>
      refine ⟨[.arrive req, .lookup 0, .render 0, .store 0], ?_⟩
      simp [run_cons, step, hlookup, System.setFlight]

end Web
end Statskboo
