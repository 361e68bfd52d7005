import Statskboo.Ingest.Wftda
import Statskboo.Lib.Gate
import Statskboo.Lib.Panics

/-!
# The requests of the WFTDA client

All requests to the WFTDA site wait for the one permit of the client.  With the permit a request
pauses, is sent, and when its error is transient sleeps for a delay that doubles, still with the
permit; then it gives the permit back and queues up again, up to five times.  Times are
milliseconds; a sleep may take longer than it was asked for, and the clock does not go back.

Main results:

- Theorem {lit}`keeps_paced`: a request that runs on its own keeps to the pace.
- Theorem {lit}`paced_of_run`: in every interleaving one request is sent after the other, each a
  pause after the one before has ended, and after the delay as well when that one is tried again.
-/

namespace Statskboo
namespace Wftda

open Transition

/-! ## One request -/

/-- The pause before each request, in milliseconds. -/
def requestDelay : Nat := 400

/-- The delay after the first attempt, in milliseconds. -/
def initialRetryDelay : Nat := 2000

/-- The longest delay, in milliseconds. -/
def maxRetryDelay : Nat := 60000

/-- How often a request is attempted at most. -/
def maxAttempts : Nat := 5

/-- What comes back for a request: a network error, or a status with a body that may be
unreadable. -/
inductive Reply where
  | networkError (message : String)
  | response (status : Nat) (text : Except String String)

/-- Whether an error status is worth another attempt. -/
def isTransient (status : Nat) : Bool :=
  decide (status = 429) || decide (status = 408) || decide (500 ≤ status ∧ status < 600)

/-- The first characters of a text. -/
def snippet (s : String) (max : Nat) : String :=
  String.ofList (s.toList.take max)

/-- What a reply comes to: a body, an error that ends the request, or another attempt.  Errors are
chains of messages. -/
inductive Verdict where
  | body (text : String)
  | bail (error : List String)
  | retryable

/-- What the client makes of a reply. -/
def verdict (statusText : Nat → String) (url : String) : Reply → Verdict
  | .networkError _ => .retryable
  | .response status text =>
      if 200 ≤ status ∧ status < 300 then
        match text with
        | .ok body => .body body
        | .error e => .bail ["reading body of " ++ url, e]
      else
        let body := match text with
          | .ok body => body
          | .error _ => ""
        if isTransient status then .retryable
        else .bail ["WFTDA " ++ url ++ " returned HTTP " ++ statusText status ++ ": " ++
          snippet body 200]

/-! ## Requests that share the client -/

/-- A request with the attempts begun and the next delay. -/
structure Fetch where
  url : String
  attempt : Nat
  backoff : Nat

/-- Where a request stands; a sleep ends at some time or later. -/
inductive Phase where
  /-- at the semaphore -/
  | waiting (c : Fetch)
  /-- with the permit, in the pause before it is sent -/
  | pausing (c : Fetch) (wakeAt : Nat)
  /-- with the permit, on its way -/
  | sending (c : Fetch)
  /-- with the permit, in the delay after a transient error -/
  | backingOff (c : Fetch) (wakeAt : Nat)
  | done (c : Fetch) (result : Except (List String) String)

/-- What happens at a request, with its time. -/
inductive Event where
  | acquire (now : Nat)
  | wake (now : Nat)
  | reply (now : Nat) (r : Reply)

/-- What is seen of the requests: when one is sent, and when it ends with which delay before it is
tried again. -/
inductive Entry where
  | sent (now : Nat) (url : String)
  | ended (now delay : Nat)
deriving DecidableEq, Repr

/-- What the requests share: the clock, and what was seen of them. -/
structure Shared where
  clock : Nat
  log : List Entry

/-- The start of a request. -/
def Fetch.start (url : String) : Fetch where
  url := url
  attempt := 1
  backoff := initialRetryDelay

/-- Where a request stands after a reply, and the delay before it is tried again. -/
def Fetch.settle (statusText : Nat → String) (c : Fetch) (now : Nat) (r : Reply) : Phase × Nat :=
  match verdict statusText c.url r with
  | .body text => (.done c (.ok text), 0)
  | .bail e => (.done c (.error e), 0)
  | .retryable =>
      if maxAttempts ≤ c.attempt then
        (.done c (.error ["WFTDA " ++ c.url ++ " failed after " ++ toString c.attempt ++
          " attempt(s)"]), 0)
      else (.backingOff c (now + c.backoff), c.backoff)

/-- The effect of an event on a request; the clock does not go back, and no sleep is shorter than
it was asked for. -/
def next (statusText : Nat → String) (s : Shared) : Phase → Event → Option (Shared × Phase)
  | .waiting c, .acquire now =>
      if s.clock ≤ now then some ({ s with clock := now }, .pausing c (now + requestDelay))
      else none
  | .pausing c wakeAt, .wake now =>
      if s.clock ≤ now ∧ wakeAt ≤ now then
        some ({ clock := now, log := s.log ++ [.sent now c.url] }, .sending c)
      else none
  | .sending c, .reply now r =>
      if s.clock ≤ now then
        some ({ clock := now, log := s.log ++ [.ended now (c.settle statusText now r).2] },
          (c.settle statusText now r).1)
      else none
  | .backingOff c wakeAt, .wake now =>
      if s.clock ≤ now ∧ wakeAt ≤ now then
        some ({ s with clock := now }, .waiting { c with
          attempt := c.attempt + 1
          backoff := min (c.backoff * 2) maxRetryDelay })
      else none
  | _, _ => none

/-- Whether a request holds the permit; it keeps it while it backs off. -/
def Phase.holds : Phase → Bool
  | pausing _ _ => true
  | sending _ => true
  | backingOff _ _ => true
  | _ => false

/-- What an event can do to a request. -/
inductive Move (statusText : Nat → String) (s : Shared) : Phase → Shared → Phase → Prop where
  | enter (c : Fetch) (now : Nat) (hclock : s.clock ≤ now) :
      Move statusText s (.waiting c) { s with clock := now } (.pausing c (now + requestDelay))
  | send (c : Fetch) (wakeAt now : Nat) (hclock : s.clock ≤ now) (hwake : wakeAt ≤ now) :
      Move statusText s (.pausing c wakeAt) { clock := now, log := s.log ++ [.sent now c.url] }
        (.sending c)
  | settle (c : Fetch) (now : Nat) (r : Reply) (hclock : s.clock ≤ now) :
      Move statusText s (.sending c)
        { clock := now, log := s.log ++ [.ended now (c.settle statusText now r).2] }
        (c.settle statusText now r).1
  | retry (c : Fetch) (wakeAt now : Nat) (hclock : s.clock ≤ now) (hwake : wakeAt ≤ now) :
      Move statusText s (.backingOff c wakeAt) { s with clock := now } (.waiting { c with
        attempt := c.attempt + 1
        backoff := min (c.backoff * 2) maxRetryDelay })

variable {statusText : Nat → String}

theorem move_of_next {s s' : Shared} {p p' : Phase} {e : Event}
    (h : next statusText s p e = some (s', p')) : Move statusText s p s' p' := by
  unfold next at h
  split at h
  · split_ifs at h with hclock
    cases h
    exact .enter _ _ hclock
  · split_ifs at h with hwake
    cases h
    exact .send _ _ _ hwake.1 hwake.2
  · split_ifs at h with hclock
    cases h
    exact .settle _ _ _ hclock
  · split_ifs at h with hwake
    cases h
    exact .retry _ _ _ hwake.1 hwake.2
  · cases h

/-- The requests behind the semaphore of the client. -/
def client (statusText : Nat → String) : Gate.Clients String Shared Phase Event where
  start url := .waiting (Fetch.start url)
  next := next statusText
  holds := Phase.holds
  holds_start _ := rfl
  quiet h hp hp' := by
    cases move_of_next h with
    | enter => cases hp'
    | send => cases hp
    | settle => cases hp
    | retry => cases hp

/-- The client before its first request. -/
def newClient : Gate.System Shared Phase :=
  Gate.initial { clock := 0, log := [] }

/-! ## The pace -/

/-- What is known of the pace: the earliest time for the next request, and whether one is on its
way. -/
structure Pace where
  earliest : Nat
  busy : Bool
deriving DecidableEq, Repr

/-- One request is sent after the other, none before its time. -/
def Pace.step : Pace → Entry → Option Pace
  | ⟨earliest, false⟩, .sent now _ => if earliest ≤ now then some ⟨now, true⟩ else none
  | ⟨sentAt, true⟩, .ended now delay =>
      if sentAt ≤ now then some ⟨now + delay + requestDelay, false⟩ else none
  | _, _ => none

/-- The pace before the first request. -/
def Pace.start : Pace :=
  ⟨requestDelay, false⟩

/-- Where the request inside has got to, in terms of the pace. -/
def PhaseOk (s : Shared) (pace : Pace) : Option Phase → Prop
  | some (.pausing _ wakeAt) => pace.busy = false ∧ pace.earliest ≤ wakeAt
  | some (.sending _) => pace.busy = true ∧ pace.earliest ≤ s.clock
  | some (.backingOff _ wakeAt) => pace.busy = false ∧ pace.earliest ≤ wakeAt + requestDelay
  | _ => pace.busy = false ∧ pace.earliest ≤ s.clock + requestDelay

/-- The requests so far have kept to the pace. -/
def PacedOk (s : Shared) (p : Option Phase) : Prop :=
  ∃ pace, run Pace.step Pace.start s.log = some pace ∧ PhaseOk s pace p

/-- The delay that a reply leaves is the one that the request sleeps for. -/
theorem settle_cases (c : Fetch) (now : Nat) (r : Reply) :
    (∃ delay, c.settle statusText now r = (.backingOff c (now + delay), delay)) ∨
      ∃ result, c.settle statusText now r = (.done c result, 0) := by
  unfold Fetch.settle
  cases verdict statusText c.url r with
  | body text => exact Or.inr ⟨_, rfl⟩
  | bail e => exact Or.inr ⟨_, rfl⟩
  | retryable =>
      dsimp only
      split_ifs
      · exact Or.inr ⟨_, rfl⟩
      · exact Or.inl ⟨_, rfl⟩

/-- A request that ends continues the pace. -/
theorem run_ended {log : List Entry} {sentAt now delay : Nat}
    (h : run Pace.step Pace.start log = some ⟨sentAt, true⟩) (hsent : sentAt ≤ now) :
    run Pace.step Pace.start (log ++ [.ended now delay]) =
      some ⟨now + delay + requestDelay, false⟩ :=
  run_concat_eq_some.mpr ⟨_, h, if_pos hsent⟩

/-- A request that runs on its own keeps to the pace. -/
theorem keeps_paced : Gate.Keeps (client statusText) PacedOk where
  enters h hp hp' hok := by
    obtain ⟨pace, hrun, hbusy, hearliest⟩ := hok
    cases move_of_next h with
    | enter c now hclock =>
        exact ⟨pace, hrun, hbusy, hearliest.trans (Nat.add_le_add_right hclock _)⟩
    | send => cases hp
    | settle => cases hp
    | retry => cases hp
  stays h hp hp' hok := by
    obtain ⟨⟨earliest, busy⟩, hrun, hphase⟩ := hok
    cases move_of_next h with
    | enter => cases hp
    | send c wakeAt now hclock hwake =>
        obtain ⟨rfl, hearliest⟩ := hphase
        exact ⟨⟨now, true⟩,
          run_concat_eq_some.mpr ⟨_, hrun, if_pos (hearliest.trans hwake)⟩, rfl, le_rfl⟩
    | settle c now r hclock =>
        obtain ⟨rfl, hearliest⟩ := hphase
        rcases @settle_cases statusText c now r with ⟨delay, hsettle⟩ | ⟨result, hsettle⟩
        · rw [hsettle]
          exact ⟨_, run_ended hrun (hearliest.trans hclock), rfl, le_rfl⟩
        · rw [hsettle] at hp'
          cases hp'
    | retry => cases hp'
  leaves h hp hp' hok := by
    obtain ⟨⟨earliest, busy⟩, hrun, hphase⟩ := hok
    cases move_of_next h with
    | enter => cases hp
    | send => cases hp'
    | settle c now r hclock =>
        obtain ⟨rfl, hearliest⟩ := hphase
        rcases @settle_cases statusText c now r with ⟨delay, hsettle⟩ | ⟨result, hsettle⟩
        · rw [hsettle] at hp'
          cases hp'
        · rw [hsettle]
          exact ⟨_, run_ended hrun (hearliest.trans hclock), rfl, le_rfl⟩
    | retry c wakeAt now hclock hwake =>
        obtain ⟨rfl, hearliest⟩ := hphase
        exact ⟨_, hrun, rfl, hearliest.trans (Nat.add_le_add_right hwake _)⟩

/-- A request is sent in its time after the one before has ended. -/
theorem paced_of_log {before after : List Entry} {sentAt endedAt delay : Nat} {url : String}
    {pace : Pace}
    (h : run Pace.step Pace.start (before ++ [.ended endedAt delay, .sent sentAt url] ++ after) =
      some pace) : endedAt + delay + requestDelay ≤ sentAt := by
  rw [run_append, run_append] at h
  obtain ⟨mid, hmid, -⟩ := Option.bind_eq_some_iff.mp h
  obtain ⟨⟨earliest, busy⟩, -, hstep⟩ := Option.bind_eq_some_iff.mp hmid
  obtain ⟨pace₁, hended, hrest⟩ := run_cons_eq_some.mp hstep
  obtain ⟨pace₂, hsent, -⟩ := run_cons_eq_some.mp hrest
  cases busy with
  | false => cases hended
  | true =>
      rw [Pace.step] at hended
      split_ifs at hended
      cases hended
      rw [Pace.step] at hsent
      split_ifs at hsent with hle
      exact hle

/-- Between two requests one of them ends. -/
theorem not_sent_sent {before after : List Entry} {t t' : Nat} {url url' : String} {pace : Pace} :
    run Pace.step Pace.start (before ++ [.sent t url, .sent t' url'] ++ after) ≠ some pace := by
  intro h
  rw [run_append, run_append] at h
  obtain ⟨mid, hmid, -⟩ := Option.bind_eq_some_iff.mp h
  obtain ⟨⟨earliest, busy⟩, -, hstep⟩ := Option.bind_eq_some_iff.mp hmid
  obtain ⟨pace₁, hsent, hrest⟩ := run_cons_eq_some.mp hstep
  obtain ⟨pace₂, hsent', -⟩ := run_cons_eq_some.mp hrest
  cases busy with
  | true => cases hsent
  | false =>
      rw [Pace.step] at hsent
      split_ifs at hsent
      cases hsent
      cases hsent'

/-! ## The attempts of a request -/

/-- The record of a request. -/
def Phase.fetch : Phase → Fetch
  | waiting c => c
  | pausing c _ => c
  | sending c => c
  | backingOff c _ => c
  | done c _ => c

/-- So many attempts have begun, and the delay has doubled with each. -/
structure Fetch.Ok (c : Fetch) : Prop where
  begun : 0 < c.attempt
  limit : c.attempt ≤ maxAttempts
  backoff : c.backoff = Panics.backoff initialRetryDelay maxRetryDelay (c.attempt - 1)

/-- The record fits where the request stands: another attempt is allowed in a delay. -/
structure Phase.Ok (p : Phase) : Prop where
  fetch : p.fetch.Ok
  again : ∀ c wakeAt, p = .backingOff c wakeAt → c.attempt < maxAttempts

theorem ok_move {s s' : Shared} {p p' : Phase} (h : Move statusText s p s' p') (hp : p.Ok) :
    p'.Ok := by
  cases h with
  | enter c now => exact ⟨hp.fetch, fun _ _ h => nomatch h⟩
  | send c wakeAt now => exact ⟨hp.fetch, fun _ _ h => nomatch h⟩
  | settle c now r =>
      unfold Fetch.settle
      cases verdict statusText c.url r with
      | body text => exact ⟨hp.fetch, fun _ _ h => nomatch h⟩
      | bail e => exact ⟨hp.fetch, fun _ _ h => nomatch h⟩
      | retryable =>
          dsimp only
          split_ifs with hmax
          · exact ⟨hp.fetch, fun _ _ h => nomatch h⟩
          · refine ⟨hp.fetch, fun c' wakeAt heq => ?_⟩
            cases heq
            exact not_le.mp hmax
  | retry c wakeAt now =>
      have hagain := hp.again c wakeAt rfl
      have hbegun : 0 < c.attempt := hp.fetch.begun
      obtain ⟨n, hn⟩ : ∃ n, c.attempt = n + 1 := ⟨c.attempt - 1, by omega⟩
      have hbackoff := hp.fetch.backoff
      rw [Phase.fetch, hn, Nat.add_sub_cancel] at hbackoff
      refine ⟨⟨Nat.succ_pos _, hagain, ?_⟩, fun _ _ h => nomatch h⟩
      change min (c.backoff * 2) maxRetryDelay = _
      rw [hbackoff, Phase.fetch, Nat.add_sub_cancel, hn]
      rfl

/-- In every interleaving one request is sent after the other, each at least the pause after the
one before has ended, and after the delay as well when that one is tried again; each request makes
up to five attempts, and its delays double from two seconds up to a minute at most. -/
theorem paced_of_run {labels : List (Gate.Label String Event)} {s : Gate.System Shared Phase}
    (hrun : run (Gate.step (client statusText)) newClient labels = some s) :
    (∀ before endedAt delay sentAt url after,
      s.shared.log = before ++ [.ended endedAt delay, .sent sentAt url] ++ after →
        endedAt + delay + 400 ≤ sentAt) ∧
    (∀ before t url t' url' after,
      s.shared.log ≠ before ++ [.sent t url, .sent t' url'] ++ after) ∧
    ∀ p ∈ s.clients, p.fetch.attempt ≤ 5 ∧
      p.fetch.backoff = min (2000 * 2 ^ (p.fetch.attempt - 1)) 60000 := by
  have hoccupied := Gate.occupied_run keeps_paced (I := PacedOk)
    ⟨Pace.start, rfl, rfl, le_rfl⟩ hrun
  obtain ⟨-, pace, hlog, -⟩ := hoccupied.exists_holds
  refine ⟨fun before endedAt delay sentAt url after heq => ?_,
    fun before t url t' url' after heq => ?_, fun p hp => ?_⟩
  · rw [heq] at hlog
    exact paced_of_log hlog
  · rw [heq] at hlog
    exact not_sent_sent hlog
  · have hok : ∀ p ∈ s.clients, p.Ok := by
      refine Gate.client_run (fun url => ?_) (fun h hp => ok_move (move_of_next h) hp) hrun
      exact ⟨⟨Nat.one_pos, Nat.le_add_left 1 4, rfl⟩, fun _ _ h => nomatch h⟩
    refine ⟨(hok p hp).fetch.limit, ?_⟩
    rw [(hok p hp).fetch.backoff, Panics.backoff_eq (by decide)]
    rfl

section Example

/-- A request that is told to slow down, and another one that comes in the meantime. -/
def slowedLabels : List (Gate.Label String Event) :=
  [.arrive "/api/teams", .arrive "/teams?page=1", .client 0 (.acquire 0), .client 0 (.wake 400),
    .client 0 (.reply 500 (.response 429 (.ok ""))), .client 0 (.wake 2500),
    .client 1 (.acquire 2500), .client 1 (.wake 2900),
    .client 1 (.reply 3000 (.response 200 (.ok "")))]

/-- The state after these labels. -/
def slowedState : Gate.System Shared Phase :=
  (run (Gate.step (client fun _ => "")) newClient slowedLabels).getD newClient

/-- What is seen of them. -/
def slowedLog : List Entry :=
  [.sent 400 "/api/teams", .ended 500 2000, .sent 2900 "/teams?page=1", .ended 3000 0]

/-- The other one is sent two seconds and a pause after the first one was told so. -/
theorem paced_of_run_slowedState : slowedState.shared.log = slowedLog ∧ 500 + 2000 + 400 ≤ 2900 := by
  have hlog : slowedState.shared.log = slowedLog := by decide +kernel
  have hrun : run (Gate.step (client fun _ => "")) newClient slowedLabels = some slowedState :=
    run_eq_some_getD (by decide +kernel) _
  refine ⟨hlog, (paced_of_run hrun).1 [.sent 400 "/api/teams"] 500 2000 2900 "/teams?page=1"
    [.ended 3000 0] hlog⟩

end Example

end Wftda
end Statskboo
