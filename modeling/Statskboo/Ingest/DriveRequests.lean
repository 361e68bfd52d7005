import Statskboo.Ingest.DriveToken
import Statskboo.Ingest.IndexSync
import Statskboo.Lib.Gate

/-!
# The requests of the Drive client

The index and the parse workers share one client.  A request waits for the permit of the client,
takes the access token that is cached or asks the endpoint for one, is sent, and gives the permit
back with the answer.  An answer 401 drops the token.  A request whose error is transient sleeps
and starts over, up to five times.  Any number of requests run at the same time.

Main results:

- Theorem {lit}`keeps_wire`: a request that runs on its own continues the session on the wire.
- Theorem {lit}`wire_of_run`: in every interleaving there is one session, so a token that was
  refused is not sent again and the endpoint is asked once for each refusal.
- Theorem {lit}`attempts_of_run`: each request makes up to five attempts and sleeps between them
  for 10, 20, 40 and 60 seconds.
-/

namespace Statskboo
namespace Drive

open Transition

/-! ## One attempt -/

/-- The media type of a spreadsheet that has to be exported. -/
def sheetsMime : String :=
  "application/vnd.google-apps.spreadsheet"

/-- The media type that spreadsheets are exported to. -/
def xlsxMime : String :=
  "application/vnd.openxmlformats-officedocument.spreadsheetml.sheet"

/-- A request of the client. -/
inductive Request where
  | list (q : String) (pageToken : Option String)
  | download (fileId : String) (mimeType : Option String)
deriving DecidableEq, Repr

/-- What is sent. -/
structure HttpGet where
  url : String
  authorization : String
  query : List (String × String)
deriving DecidableEq, Repr

/-- The header that carries a token. -/
def bearer (token : String) : String :=
  "Bearer " ++ token

/-- What is sent for a request with a token. -/
def Request.httpGet (token : String) : Request → HttpGet
  | list q pageToken =>
      { url := "https://www.googleapis.com/drive/v3/files"
        authorization := bearer token
        query := [("q", q), ("fields", "nextPageToken,files(id,name,modifiedTime,mimeType)"),
            ("pageSize", "1000")] ++
          match pageToken with
          | some t => [("pageToken", t)]
          | none => [] }
  | download fileId mimeType =>
      if mimeType = some sheetsMime then
        { url := "https://www.googleapis.com/drive/v3/files/" ++ fileId ++ "/export"
          authorization := bearer token
          query := [("mimeType", xlsxMime)] }
      else
        { url := "https://www.googleapis.com/drive/v3/files/" ++ fileId
          authorization := bearer token
          query := [("alt", "media")] }

/-- What a request is for. -/
inductive Payload where
  | fileList (list : FileList)
  | bytes (bytes : List UInt8)

/-- A response of Drive; its body is read as a text, as a page of a listing or as bytes, and each
may fail. -/
structure Response where
  status : Nat
  text : Except String String
  json : Except String FileList
  bytes : Except String (List UInt8)

/-- What comes back for what was sent. -/
inductive Reply where
  | networkError (message : String)
  | response (resp : Response)

/-- The body of an error response. -/
def readErrorBody (resp : Response) : String :=
  match resp.text with
  | .ok body => body
  | .error e => "(body unreadable: " ++ e ++ ")"

/-- Whether an error response is worth another attempt; Drive answers 403 for rate limits and for
missing permissions. -/
def isTransientHttpStatus (status : Nat) (body : String) : Bool :=
  if status = 429 ∨ (500 ≤ status ∧ status < 600) then true
  else if status = 403 then
    decide ("rateLimitExceeded".toList <:+: body.toList) ||
      decide ("userRateLimitExceeded".toList <:+: body.toList) ||
      decide ("dailyLimitExceeded".toList <:+: body.toList)
  else false

/-- The body of a successful response. -/
def Request.read (resp : Response) : Request → Panics FetchError Payload
  | list _ _ =>
      match resp.json with
      | .ok page => .ok (.fileList page)
      | .error e => .err (.transient ("parse error: " ++ e))
  | download _ _ =>
      match resp.bytes with
      | .ok bytes => .ok (.bytes bytes)
      | .error e => .err (.transient ("body read error: " ++ e))

/-- Whether the token was refused. -/
def Reply.unauthorized : Reply → Bool
  | networkError _ => false
  | response resp => decide (resp.status = 401)

/-- What an attempt comes to. -/
def Request.outcome (statusText : Nat → String) (r : Request) : Reply → Panics FetchError Payload
  | .networkError e => .err (.transient ("network error: " ++ e))
  | .response resp =>
      if resp.status = 401 then
        .err (.transient ("HTTP 401 (token expired): " ++ readErrorBody resp))
      else if !isSuccess resp.status then
        let body := readErrorBody resp
        let msg := "HTTP " ++ statusText resp.status ++ ": " ++ body
        if isTransientHttpStatus resp.status body then .err (.transient msg)
        else .err (.permanent msg)
      else r.read resp

/-! ## Requests that share the client -/

/-- The delay after the first attempt, in seconds. -/
def initialRetryDelay : Nat := 10

/-- The longest delay, in seconds. -/
def maxRetryDelay : Nat := 60

/-- A request with the attempts begun, the next delay, and what has come of it so far: the
outcomes of the attempts and the delays between them. -/
structure Progress where
  request : Request
  attempts : Nat
  delay : Nat
  outcomes : List (Panics FetchError Payload)
  slept : List Nat

/-- Where a request stands. -/
inductive Phase where
  /-- at the semaphore -/
  | waiting (c : Progress)
  /-- with the permit, at the token endpoint -/
  | fetching (c : Progress)
  /-- with the permit and a token, at Drive -/
  | sending (c : Progress) (token : String)
  | sleeping (c : Progress)
  | done (c : Progress) (result : Panics String Payload)

/-- What happens at a request. -/
inductive Event where
  | acquire
  | tokenAnswer (service : TokenService)
  | reply (r : Reply)
  | wake

/-- What is seen on the wire. -/
inductive Wire where
  | issued (token : String)
  | denied
  | sent (get : HttpGet)
  | refused
  | answered
deriving DecidableEq, Repr

/-- What the requests share: the cached token; and what was seen on the wire. -/
structure Shared where
  token : Option String
  wire : List Wire

/-- The start of a request. -/
def Progress.start (r : Request) : Progress where
  request := r
  attempts := 1
  delay := initialRetryDelay
  outcomes := []
  slept := []

/-- Where a request stands after the outcome of an attempt; a panic takes it with it. -/
def Progress.finish (c : Progress) (o : Panics FetchError Payload) : Phase :=
  let c := { c with outcomes := c.outcomes ++ [o] }
  match o with
  | .ok v => .done c (.ok v)
  | .panic => .done c .panic
  | .err (.permanent e) => .done c (.err e)
  | .err (.transient e) => if maxAttempts ≤ c.attempts then .done c (.err e) else .sleeping c

/-- The effect of an event on a request. -/
def next (sa : ServiceAccount) (statusText : Nat → String) (s : Shared) :
    Phase → Event → Option (Shared × Phase)
  | .waiting c, .acquire =>
      match s.token with
      | some t => some ({ s with wire := s.wire ++ [.sent (c.request.httpGet t)] }, .sending c t)
      | none => some (s, .fetching c)
  | .fetching c, .tokenAnswer service =>
      match ensureToken service sa none with
      | (.ok t, token) =>
          some ({ token, wire := s.wire ++ [.issued t, .sent (c.request.httpGet t)] },
            .sending c t)
      | (.err e, token) => some ({ token, wire := s.wire ++ [.denied] }, c.finish (.err e))
      | (.panic, token) => some ({ token, wire := s.wire ++ [.denied] }, c.finish .panic)
  | .sending c _, .reply r =>
      let s : Shared :=
        if r.unauthorized then { token := none, wire := s.wire ++ [.refused] }
        else { s with wire := s.wire ++ [.answered] }
      some (s, c.finish (c.request.outcome statusText r))
  | .sleeping c, .wake =>
      some (s, .waiting { c with
        attempts := c.attempts + 1
        delay := min (c.delay * 2) maxRetryDelay
        slept := c.slept ++ [c.delay] })
  | _, _ => none

/-- Whether a request holds the permit. -/
def Phase.holds : Phase → Bool
  | fetching _ => true
  | sending _ _ => true
  | _ => false

theorem holds_finish (c : Progress) (o : Panics FetchError Payload) :
    (c.finish o).holds = false := by
  unfold Progress.finish
  cases o with
  | ok v => rfl
  | panic => rfl
  | err e =>
      cases e with
      | permanent e => rfl
      | transient e =>
          dsimp only
          split_ifs <;> rfl

variable {sa : ServiceAccount} {statusText : Nat → String}

/-- What an event can do to a request. -/
inductive Move (statusText : Nat → String) (s : Shared) : Phase → Shared → Phase → Prop where
  | send (c : Progress) (t : String) (ht : s.token = some t) :
      Move statusText s (.waiting c)
        { token := some t, wire := s.wire ++ [.sent (c.request.httpGet t)] } (.sending c t)
  | fetch (c : Progress) (ht : s.token = none) : Move statusText s (.waiting c) s (.fetching c)
  | issue (c : Progress) (t : String) :
      Move statusText s (.fetching c)
        { token := some t, wire := s.wire ++ [.issued t, .sent (c.request.httpGet t)] }
        (.sending c t)
  | deny (c : Progress) (o : Panics FetchError Payload)
      (ho : o = .panic ∨ ∃ m, o = .err (.transient m)) :
      Move statusText s (.fetching c) { token := none, wire := s.wire ++ [.denied] } (c.finish o)
  | refuse (c : Progress) (t : String) (r : Reply) (hr : r.unauthorized = true) :
      Move statusText s (.sending c t) { token := none, wire := s.wire ++ [.refused] }
        (c.finish (c.request.outcome statusText r))
  | answer (c : Progress) (t : String) (r : Reply) (hr : r.unauthorized = false) :
      Move statusText s (.sending c t) { s with wire := s.wire ++ [.answered] }
        (c.finish (c.request.outcome statusText r))
  | wake (c : Progress) :
      Move statusText s (.sleeping c) s (.waiting { c with
        attempts := c.attempts + 1
        delay := min (c.delay * 2) maxRetryDelay
        slept := c.slept ++ [c.delay] })

/-- Without a token, the endpoint answers with one, or with a transient error or a panic and still
without one. -/
theorem ensureToken_none_cases (service : TokenService) (sa : ServiceAccount) :
    (∃ t, ensureToken service sa none = (.ok t, some t)) ∨
      (∃ m, ensureToken service sa none = (.err (.transient m), none)) ∨
      ensureToken service sa none = (.panic, none) := by
  unfold ensureToken
  cases fetchAccessToken service sa with
  | ok t => exact Or.inl ⟨t, rfl⟩
  | err e => exact Or.inr (Or.inl ⟨_, rfl⟩)
  | panic => exact Or.inr (Or.inr rfl)

theorem move_of_next {s s' : Shared} {p p' : Phase} {e : Event}
    (h : next sa statusText s p e = some (s', p')) : Move statusText s p s' p' := by
  cases p with
  | waiting c =>
      cases e with
      | acquire =>
          unfold next at h
          cases ht : s.token with
          | some t =>
              rw [ht] at h
              cases h
              exact .send c t ht
          | none =>
              rw [ht] at h
              cases h
              exact .fetch c ht
      | tokenAnswer service => cases h
      | reply r => cases h
      | wake => cases h
  | fetching c =>
      cases e with
      | tokenAnswer service =>
          rcases ensureToken_none_cases service sa with ⟨t, hservice⟩ | ⟨m, hservice⟩ | hservice
          · rw [next, hservice] at h
            cases h
            exact .issue c t
          · rw [next, hservice] at h
            cases h
            exact .deny c _ (Or.inr ⟨m, rfl⟩)
          · rw [next, hservice] at h
            cases h
            exact .deny c _ (Or.inl rfl)
      | acquire => cases h
      | reply r => cases h
      | wake => cases h
  | sending c t =>
      cases e with
      | reply r =>
          unfold next at h
          cases hr : r.unauthorized with
          | true =>
              simp only [hr, if_true] at h
              cases h
              exact .refuse c t r hr
          | false =>
              simp only [hr, Bool.false_eq_true, if_false] at h
              cases h
              exact .answer c t r hr
      | acquire => cases h
      | tokenAnswer service => cases h
      | wake => cases h
  | sleeping c =>
      cases e with
      | wake =>
          cases h
          exact .wake c
      | acquire => cases h
      | tokenAnswer service => cases h
      | reply r => cases h
  | done c result => cases e <;> cases h

theorem quiet_next {s s' : Shared} {p p' : Phase} {e : Event}
    (h : next sa statusText s p e = some (s', p')) (hp : p.holds = false)
    (hp' : p'.holds = false) : s' = s := by
  cases move_of_next h with
  | send => cases hp'
  | fetch => rfl
  | issue => cases hp
  | deny => cases hp
  | refuse => cases hp
  | answer => cases hp
  | wake => rfl

/-- The requests behind the semaphore of the client. -/
def client (sa : ServiceAccount) (statusText : Nat → String) :
    Gate.Clients Request Shared Phase Event where
  start r := .waiting (Progress.start r)
  next := next sa statusText
  holds := Phase.holds
  holds_start _ := rfl
  quiet := quiet_next

/-- The client before its first request. -/
def newClient : Gate.System Shared Phase :=
  Gate.initial { token := none, wire := [] }

/-! ## The session on the wire -/

/-- What the other end knows: the token it gave out and has not refused, and whether a request is
waiting for its answer. -/
structure Session where
  token : Option String
  pending : Bool
deriving DecidableEq, Repr

/-- A session asks for a token when it has none, and sends one request after the other with the
token it has. -/
def Session.step : Session → Wire → Option Session
  | ⟨none, false⟩, .issued t => some ⟨some t, false⟩
  | ⟨none, false⟩, .denied => some ⟨none, false⟩
  | ⟨some t, false⟩, .sent get => if get.authorization = bearer t then some ⟨some t, true⟩ else none
  | ⟨some _, true⟩, .refused => some ⟨none, false⟩
  | ⟨some t, true⟩, .answered => some ⟨some t, false⟩
  | _, _ => none

/-- The session before the first token. -/
def Session.start : Session :=
  ⟨none, false⟩

/-- Whether the request inside waits for its answer. -/
def pending : Option Phase → Bool
  | some (.sending _ _) => true
  | _ => false

/-- A request at the endpoint has no token, and one at Drive has the one that is cached. -/
def TokenOk (s : Shared) : Option Phase → Prop
  | some (.fetching _) => s.token = none
  | some (.sending _ t) => s.token = some t
  | _ => True

/-- The wire so far is a session that stands where the request inside stands. -/
structure WireOk (s : Shared) (p : Option Phase) : Prop where
  session : run Session.step Session.start s.wire = some ⟨s.token, pending p⟩
  token : TokenOk s p

theorem authorization_httpGet (token : String) (r : Request) :
    (r.httpGet token).authorization = bearer token := by
  cases r with
  | list q pageToken => rfl
  | download fileId mimeType =>
      rw [Request.httpGet]
      split_ifs <;> rfl

theorem run_wire_append {wire rest : List Wire} {ses ses' : Session}
    (h : run Session.step Session.start wire = some ses)
    (hrest : run Session.step ses rest = some ses') :
    run Session.step Session.start (wire ++ rest) = some ses' := by
  rw [run_append, h, Option.bind_some, hrest]

/-- A request that is sent continues a session that waits for none. -/
theorem run_sent (t : String) (r : Request) :
    run Session.step ⟨some t, false⟩ [.sent (r.httpGet t)] = some ⟨some t, true⟩ := by
  rw [run_cons, Session.step, if_pos (authorization_httpGet t r)]
  rfl

/-- A request that runs on its own continues the session on the wire. -/
theorem keeps_wire : Gate.Keeps (client sa statusText) WireOk where
  enters h hp hp' hok := by
    cases move_of_next h with
    | send c t ht =>
        have hsession := hok.session
        rw [ht] at hsession
        exact ⟨run_wire_append hsession (run_sent t c.request), rfl⟩
    | fetch c ht => exact ⟨hok.session, ht⟩
    | issue => cases hp
    | deny => cases hp
    | refuse => cases hp
    | answer => cases hp
    | wake => cases hp'
  stays h hp hp' hok := by
    cases move_of_next h with
    | send => cases hp
    | fetch => cases hp
    | issue c t =>
        have hsession := hok.session
        have htoken := hok.token
        dsimp only [TokenOk] at htoken
        rw [htoken] at hsession
        exact ⟨run_wire_append hsession (run_sent t c.request), rfl⟩
    | deny c o => cases (holds_finish c o).symm.trans hp'
    | refuse c t r => cases (holds_finish c _).symm.trans hp'
    | answer c t r => cases (holds_finish c _).symm.trans hp'
    | wake => cases hp
  leaves h hp hp' hok := by
    have hsession := hok.session
    have htoken := hok.token
    cases move_of_next h with
    | send => cases hp
    | fetch => cases hp
    | issue => cases hp'
    | deny c o =>
        dsimp only [TokenOk] at htoken
        rw [htoken] at hsession
        exact ⟨run_wire_append hsession rfl, trivial⟩
    | refuse c t r =>
        dsimp only [TokenOk] at htoken
        rw [htoken] at hsession
        exact ⟨run_wire_append hsession rfl, trivial⟩
    | answer c t r =>
        dsimp only [TokenOk] at htoken
        rw [htoken] at hsession
        refine ⟨?_, trivial⟩
        rw [htoken]
        exact run_wire_append hsession rfl
    | wake => cases hp

/-! ## What a session is -/

/-- What can be seen next in a session. -/
inductive Session.Seen : Session → Wire → Session → Prop where
  | issued (t : String) : Seen ⟨none, false⟩ (.issued t) ⟨some t, false⟩
  | denied : Seen ⟨none, false⟩ .denied ⟨none, false⟩
  | sent (t : String) (get : HttpGet) (hget : get.authorization = bearer t) :
      Seen ⟨some t, false⟩ (.sent get) ⟨some t, true⟩
  | refused (t : String) : Seen ⟨some t, true⟩ .refused ⟨none, false⟩
  | answered (t : String) : Seen ⟨some t, true⟩ .answered ⟨some t, false⟩

theorem Session.seen_of_step {ses ses' : Session} {w : Wire} (h : Session.step ses w = some ses') :
    Session.Seen ses w ses' := by
  unfold Session.step at h
  split at h
  · cases h
    exact .issued _
  · cases h
    exact .denied
  · next t get =>
      split_ifs at h with hget
      cases h
      exact .sent t get hget
  · cases h
    exact .refused _
  · cases h
    exact .answered _
  · cases h

theorem seen_of_run_concat {wire : List Wire} {w : Wire} {ses' : Session}
    (h : run Session.step Session.start (wire ++ [w]) = some ses') :
    ∃ ses, run Session.step Session.start wire = some ses ∧ Session.Seen ses w ses' := by
  obtain ⟨ses, hrun, hstep⟩ := run_concat_eq_some.mp h
  exact ⟨ses, hrun, Session.seen_of_step hstep⟩

/-- The wire shows that a token was issued and neither refused nor replaced since. -/
def Current (wire : List Wire) (t : String) : Prop :=
  ∃ before between, wire = before ++ .issued t :: between ∧ .refused ∉ between ∧
    ∀ t', .issued t' ∉ between

theorem current_concat {wire : List Wire} {t : String} {w : Wire} (h : Current wire t)
    (hw : w ≠ .refused) (hw' : ∀ t', w ≠ .issued t') : Current (wire ++ [w]) t := by
  obtain ⟨before, between, rfl, hrefused, hissued⟩ := h
  refine ⟨before, between ++ [w], by simp, ?_, fun t' => ?_⟩
  · simpa [hrefused] using Ne.symm hw
  · simpa [hissued t'] using Ne.symm (hw' t')

/-- The token of a session is current. -/
theorem current_of_session {wire : List Wire} {t : String} {b : Bool}
    (h : run Session.step Session.start wire = some ⟨some t, b⟩) : Current wire t := by
  induction wire using List.reverseRecOn generalizing b with
  | nil => cases h
  | append_singleton wire w ih =>
      obtain ⟨ses, hrun, hseen⟩ := seen_of_run_concat h
      cases hseen with
      | issued => exact ⟨wire, [], rfl, List.not_mem_nil, fun _ => List.not_mem_nil⟩
      | sent _ get => exact current_concat (ih hrun) (by simp) (by simp)
      | answered => exact current_concat (ih hrun) (by simp) (by simp)

/-- The number of tokens given out. -/
def issuedCount (wire : List Wire) : Nat :=
  wire.countP fun w => match w with
    | .issued _ => true
    | _ => false

/-- The endpoint gives out a token once at the start and once for each refusal. -/
theorem issuedCount_of_session {wire : List Wire} {ses : Session}
    (h : run Session.step Session.start wire = some ses) :
    issuedCount wire = wire.count .refused + if ses.token.isSome then 1 else 0 := by
  induction wire using List.reverseRecOn generalizing ses with
  | nil =>
      cases h
      rfl
  | append_singleton wire w ih =>
      obtain ⟨ses, hrun, hseen⟩ := seen_of_run_concat h
      have hbefore := ih hrun
      unfold issuedCount at hbefore ⊢
      rw [List.countP_append, List.count_append, hbefore]
      cases hseen <;> simp

/-- Whatever is sent in a session carries a token that is current. -/
theorem current_of_sent {before after : List Wire} {get : HttpGet} {ses : Session}
    (h : run Session.step Session.start (before ++ .sent get :: after) = some ses) :
    ∃ t, get.authorization = bearer t ∧ Current before t := by
  have hsplit : before ++ .sent get :: after = (before ++ [.sent get]) ++ after := by simp
  rw [hsplit, run_append] at h
  obtain ⟨mid, hmid, -⟩ := Option.bind_eq_some_iff.mp h
  obtain ⟨ses', hrun, hseen⟩ := seen_of_run_concat hmid
  cases hseen with
  | sent t _ hget => exact ⟨t, hget, current_of_session hrun⟩

/-! ## Every interleaving -/

/-- In every interleaving of requests at most one of them is at the endpoint or at Drive, every
request that is sent carries the token that was given out last and not refused since, and the
endpoint gives out at most one token more than Drive has refused. -/
theorem wire_of_run {labels : List (Gate.Label Request Event)}
    {s : Gate.System Shared Phase}
    (hrun : run (Gate.step (client sa statusText)) newClient labels = some s) :
    (∀ (i j : Nat) (p q : Phase), s.clients[i]? = some p → s.clients[j]? = some q →
      p.holds = true → q.holds = true → i = j) ∧
    (∀ before get after, s.shared.wire = before ++ .sent get :: after →
      ∃ t, get.authorization = bearer t ∧ Current before t) ∧
    issuedCount s.shared.wire ≤ s.shared.wire.count .refused + 1 := by
  have hoccupied := Gate.occupied_run keeps_wire (I := WireOk) ⟨rfl, trivial⟩ hrun
  obtain ⟨p, hok⟩ := hoccupied.exists_holds
  refine ⟨fun i j p q hi hj hp hq => hoccupied.unique ⟨hi, hp⟩ ⟨hj, hq⟩, ?_, ?_⟩
  · intro before get after hwire
    have hsession := hok.session
    rw [hwire] at hsession
    exact current_of_sent hsession
  · rw [issuedCount_of_session hok.session]
    split_ifs <;> omega

/-! ## The attempts of a request -/

/-- The outcome is an error that is worth another attempt. -/
def IsTransient (o : Panics FetchError Payload) : Prop :=
  ∃ m, o = .err (.transient m)

/-- The delays after the first attempts, in seconds. -/
def delays (n : Nat) : List Nat :=
  (List.range n).map (Panics.backoff initialRetryDelay maxRetryDelay)

/-- So many attempts have begun, and those before the last came to transient errors. -/
structure Progress.Trying (c : Progress) : Prop where
  attempts : c.attempts = c.outcomes.length + 1
  limit : c.attempts ≤ maxAttempts
  failed : ∀ o ∈ c.outcomes, IsTransient o
  delay : c.delay = Panics.backoff initialRetryDelay maxRetryDelay c.outcomes.length
  slept : c.slept = delays c.outcomes.length

/-- All attempts begun came to transient errors, and another one is allowed. -/
structure Progress.Failed (c : Progress) : Prop where
  attempts : c.attempts = c.outcomes.length
  begun : 0 < c.outcomes.length
  limit : c.attempts < maxAttempts
  failed : ∀ o ∈ c.outcomes, IsTransient o
  delay : c.delay = Panics.backoff initialRetryDelay maxRetryDelay (c.outcomes.length - 1)
  slept : c.slept = delays (c.outcomes.length - 1)

/-- The last attempt came to the result, or used up the limit. -/
structure Progress.Ended (c : Progress) (result : Panics String Payload) : Prop where
  outcomes : ∃ before o, c.outcomes = before ++ [o] ∧ (∀ o ∈ before, IsTransient o) ∧
    result = o.mapErr FetchError.message ∧ (IsTransient o → c.outcomes.length = maxAttempts)
  limit : c.outcomes.length ≤ maxAttempts
  slept : c.slept = delays (c.outcomes.length - 1)

/-- The record of a request fits where it stands. -/
def Phase.Ok : Phase → Prop
  | waiting c => c.Trying
  | fetching c => c.Trying
  | sending c _ => c.Trying
  | sleeping c => c.Failed
  | done c result => c.Ended result

theorem ok_finish {c : Progress} (h : c.Trying) (o : Panics FetchError Payload) :
    (c.finish o).Ok := by
  have hlimit := h.limit
  rw [h.attempts] at hlimit
  have hended : ∀ result, result = o.mapErr FetchError.message →
      (IsTransient o → c.outcomes.length + 1 = maxAttempts) →
      Progress.Ended { c with outcomes := c.outcomes ++ [o] } result := by
    intro result hresult hlast
    refine ⟨⟨c.outcomes, o, rfl, h.failed, hresult, fun ho => ?_⟩, ?_, ?_⟩
    · simpa using hlast ho
    · simpa using hlimit
    · simpa using h.slept
  cases o with
  | ok v => exact hended _ rfl fun ⟨_, hm⟩ => nomatch hm
  | panic => exact hended _ rfl fun ⟨_, hm⟩ => nomatch hm
  | err e =>
      cases e with
      | permanent e => exact hended _ rfl fun ⟨_, hm⟩ => nomatch hm
      | transient e =>
          rw [Progress.finish]
          dsimp only
          split_ifs with hmax
          · rw [h.attempts] at hmax
            exact hended _ rfl fun _ => le_antisymm hlimit hmax
          · refine ⟨?_, ?_, not_le.mp hmax, ?_, ?_, ?_⟩
            · simpa using h.attempts
            · simp
            · intro o ho
              rcases List.mem_append.mp ho with ho | ho
              · exact h.failed o ho
              · exact ⟨e, List.mem_singleton.mp ho⟩
            · simpa using h.delay
            · simpa using h.slept

theorem ok_move {s s' : Shared} {p p' : Phase} (h : Move statusText s p s' p') (hp : p.Ok) :
    p'.Ok := by
  cases h with
  | send => exact hp
  | fetch => exact hp
  | issue => exact hp
  | deny c o => exact ok_finish hp o
  | refuse c t r => exact ok_finish hp _
  | answer c t r => exact ok_finish hp _
  | wake c =>
      obtain ⟨hattempts, hbegun, hlimit, hfailed, hdelay, hslept⟩ := hp
      obtain ⟨n, hn⟩ : ∃ n, c.outcomes.length = n + 1 := ⟨c.outcomes.length - 1, by omega⟩
      rw [hn, Nat.add_sub_cancel] at hdelay hslept
      refine ⟨congrArg (· + 1) hattempts, hlimit, hfailed, ?_, ?_⟩
      · dsimp only
        rw [hdelay, hn]
        rfl
      · dsimp only
        rw [hslept, hdelay, hn, delays, delays, List.range_succ, List.map_append]
        rfl

/-- An ended request came to what the retry loop makes of its attempts. -/
theorem eq_withRetry_of_ended {c : Progress} {result : Panics String Payload}
    (h : c.Ended result) :
    result = withRetry fun n => (c.outcomes[n - 1]?).getD .panic := by
  obtain ⟨⟨before, o, houtcomes, hbefore, hresult, hlast⟩, hlimit, -⟩ := h
  rw [hresult, withRetry]
  have hlength : c.outcomes.length = before.length + 1 := by rw [houtcomes]; simp
  have hattempt : (c.outcomes[1 + before.length - 1]?).getD .panic = o := by
    rw [houtcomes, Nat.add_sub_cancel_left]
    simp
  rw [Panics.retry_eq_attempt (k := before.length), hattempt]
  · unfold maxAttempts at hlimit ⊢
    omega
  · intro j hj
    have hget : (c.outcomes[1 + j - 1]?).getD .panic = before[j] := by
      rw [houtcomes, Nat.add_sub_cancel_left, List.getElem?_append_left hj,
        List.getElem?_eq_getElem hj]
      rfl
    obtain ⟨m, hm⟩ := hbefore _ (List.getElem_mem hj)
    exact ⟨.transient m, hget.trans hm, rfl⟩
  · by_cases ho : IsTransient o
    · left
      have hfull := hlast ho
      unfold maxAttempts at hfull ⊢
      omega
    · right
      intro e he
      rw [hattempt] at he
      cases e with
      | permanent m => rfl
      | transient m => exact absurd ⟨m, he⟩ ho

/-- The record of a request. -/
def Phase.progress : Phase → Progress
  | waiting c => c
  | fetching c => c
  | sending c _ => c
  | sleeping c => c
  | done c _ => c

theorem delays_prefix {n : Nat} (h : n ≤ 4) : delays n <+: [10, 20, 40, 60] := by
  have hfour : delays 4 = [10, 20, 40, 60] := by decide
  rw [← hfour]
  obtain ⟨k, hk⟩ := Nat.exists_eq_add_of_le h
  rw [delays, delays, hk, List.range_add, List.map_append]
  exact List.prefix_append _ _

theorem slept_of_ok {p : Phase} (h : p.Ok) :
    p.progress.outcomes.length ≤ 5 ∧ p.progress.slept <+: [10, 20, 40, 60] := by
  have htrying : ∀ c : Progress, c.Trying →
      c.outcomes.length ≤ 5 ∧ c.slept <+: [10, 20, 40, 60] := by
    intro c hc
    have hlimit := hc.limit
    rw [hc.attempts, maxAttempts] at hlimit
    rw [hc.slept]
    exact ⟨by omega, delays_prefix (by omega)⟩
  cases p with
  | waiting c => exact htrying c h
  | fetching c => exact htrying c h
  | sending c t => exact htrying c h
  | sleeping c =>
      have hlimit := Progress.Failed.limit h
      rw [Progress.Failed.attempts h, maxAttempts] at hlimit
      rw [Phase.progress, Progress.Failed.slept h]
      exact ⟨by omega, delays_prefix (by omega)⟩
  | done c result =>
      have hlimit := Progress.Ended.limit h
      rw [maxAttempts] at hlimit
      rw [Phase.progress, Progress.Ended.slept h]
      exact ⟨hlimit, delays_prefix (by omega)⟩

/-- A token service that cannot sign. -/
def unsigned : TokenService where
  buildJwt _ := .error []
  post _ _ := .error ""
  statusText _ := ""
  parseJson _ := .error ""

/-- A request that has not ended has an event. -/
theorem exists_event (s : Shared) {p : Phase} (hp : ∀ c result, p ≠ .done c result) :
    ∃ e r, next sa statusText s p e = some r := by
  cases p with
  | waiting c =>
      cases ht : s.token with
      | some t => exact ⟨.acquire, _, by simp only [next, ht]; rfl⟩
      | none => exact ⟨.acquire, _, by simp only [next, ht]; rfl⟩
  | fetching c => exact ⟨.tokenAnswer unsigned, Option.isSome_iff_exists.mp rfl⟩
  | sending c t => exact ⟨.reply (.networkError ""), _, rfl⟩
  | sleeping c => exact ⟨.wake, _, rfl⟩
  | done c result => exact absurd rfl (hp c result)

/-- As long as some request has not ended, one of them can go on. -/
theorem exists_step_of_occupied {s : Gate.System Shared Phase}
    (h : Gate.Occupied (client sa statusText) WireOk s)
    (hopen : ∃ p ∈ s.clients, ∀ c result, p ≠ .done c result) :
    ∃ i e s', Gate.step (client sa statusText) s (.client i e) = some s' := by
  cases h with
  | empty hfree hout hI =>
      obtain ⟨p, hp, hnot⟩ := hopen
      obtain ⟨i, hi, rfl⟩ := List.mem_iff_getElem.mp hp
      obtain ⟨e, r, hnext⟩ := exists_event s.shared hnot
      obtain ⟨s', hs'⟩ := Gate.exists_step (c := client sa statusText)
        (List.getElem?_eq_getElem hi) hnext fun _ _ => hfree
      exact ⟨i, e, s', hs'⟩
  | taken i p htaken hin hone hI =>
      have hnot : ∀ c result, p ≠ .done c result := by
        rintro c result rfl
        cases hin.2
      obtain ⟨e, r, hnext⟩ := exists_event s.shared hnot
      obtain ⟨s', hs'⟩ := Gate.exists_step (c := client sa statusText) hin.1 hnext fun hp _ => by
        rw [hin.2] at hp
        cases hp
      exact ⟨i, e, s', hs'⟩

/-- In every interleaving each request makes up to five attempts, sleeps between them for 10, 20,
40 and 60 seconds, and ends with what the retry loop makes of its attempts; and as long as some
request has not ended there is an event that one of them can go on with. -/
theorem attempts_of_run {labels : List (Gate.Label Request Event)}
    {s : Gate.System Shared Phase}
    (hrun : run (Gate.step (client sa statusText)) newClient labels = some s) :
    (∀ p ∈ s.clients, p.progress.outcomes.length ≤ 5 ∧ p.progress.slept <+: [10, 20, 40, 60]) ∧
    (∀ c result, .done c result ∈ s.clients →
      result = withRetry fun n => (c.outcomes[n - 1]?).getD .panic) ∧
    ((∃ p ∈ s.clients, ∀ c result, p ≠ .done c result) →
      ∃ i e s', Gate.step (client sa statusText) s (.client i e) = some s') := by
  have hok : ∀ p ∈ s.clients, p.Ok := by
    refine Gate.client_run (fun r => ?_) (fun h hp => ok_move (move_of_next h) hp) hrun
    exact ⟨rfl, Nat.le_add_left 1 4, by simp [Progress.start], rfl, rfl⟩
  exact ⟨fun p hp => slept_of_ok (hok p hp),
    fun c result hmem => eq_withRetry_of_ended (hok _ hmem),
    exists_step_of_occupied (Gate.occupied_run keeps_wire ⟨rfl, trivial⟩ hrun)⟩

section Example

/-- An endpoint that gives out a token. -/
def granting (token : String) : TokenService where
  buildJwt _ := .ok "jwt"
  post _ _ := .ok { status := 200, text := .ok "" }
  statusText _ := "200 OK"
  parseJson _ := .ok (.object [("access_token", .string token)])

/-- A response with an empty body. -/
def emptyResponse (status : Nat) : Reply :=
  .response { status, text := .ok "", json := .error "", bytes := .ok [] }

/-- The token of one download is refused; another download gets a new one, with which the first
one tries again. -/
def refusedLabels : List (Gate.Label Request Event) :=
  [.arrive (.download "f" none), .arrive (.download "g" none), .client 0 .acquire,
    .client 0 (.tokenAnswer (granting "old")), .client 0 (.reply (emptyResponse 401)),
    .client 1 .acquire, .client 1 (.tokenAnswer (granting "new")),
    .client 1 (.reply (emptyResponse 200)), .client 0 .wake, .client 0 .acquire,
    .client 0 (.reply (emptyResponse 200))]

/-- The state after these labels. -/
def refusedState : Gate.System Shared Phase :=
  (run (Gate.step (client testAccount fun _ => "")) newClient refusedLabels).getD newClient

theorem run_refusedState :
    run (Gate.step (client testAccount fun _ => "")) newClient refusedLabels =
      some refusedState :=
  run_eq_some_getD (by decide +kernel) _

/-- What is seen on the wire before the first download tries again. -/
def refusedWire : List Wire :=
  [.issued "old", .sent (Request.httpGet "old" (.download "f" none)), .refused, .issued "new",
    .sent (Request.httpGet "new" (.download "g" none)), .answered]

/-- The second attempt carries a token that is current, and two tokens are enough. -/
theorem wire_of_run_refusedState :
    (∃ t, (Request.httpGet "new" (.download "f" none)).authorization = bearer t ∧
      Current refusedWire t) ∧ issuedCount refusedState.shared.wire ≤ 2 := by
  obtain ⟨-, hsent, hissued⟩ := wire_of_run run_refusedState
  refine ⟨hsent refusedWire _ [.answered] (by decide +kernel), ?_⟩
  exact hissued.trans (by decide +kernel)

/-- Both downloads end with what the retry loop makes of their attempts, of which there are few. -/
theorem attempts_of_run_refusedState :
    (refusedState.clients.all fun p => p.progress.outcomes.length ≤ 5) = true ∧
      ∀ c result, .done c result ∈ refusedState.clients →
        result = withRetry fun n => (c.outcomes[n - 1]?).getD .panic := by
  obtain ⟨hfew, hended, -⟩ := attempts_of_run run_refusedState
  exact ⟨List.all_eq_true.mpr fun p hp => decide_eq_true (hfew p hp).1, hended⟩

end Example

end Drive
end Statskboo
