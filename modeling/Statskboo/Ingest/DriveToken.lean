import Statskboo.Lib.ByteText
import Statskboo.Lib.Panics

/-!
# The access token of the Drive client

Before each request the client asks the token endpoint for an access token unless it has
one.  An answer without a token is quoted in the error, cut to 200 bytes.  Signing the
request, the network and the JSON reader are parameters.

Main results:

- Theorem {lit}`fetchAccessToken_of_badAnswer`: an answer without a token is an error when
  the cut is possible, and a panic otherwise.
- Theorem {lit}`tokenErrors_iff`: such an answer ends the request of the client with an error
  exactly when the cut does not fall inside a character.
-/

namespace Statskboo
namespace Drive

/-! ## The token endpoint -/

/-- A JSON value; the fields of an object have distinct names. -/
inductive Value where
  | null
  | bool (b : Bool)
  | number (text : String)
  | string (s : String)
  | array (values : List Value)
  | object (fields : List (String × Value))

namespace Value

/-- The value of a field of an object. -/
def get (name : String) : Value → Option Value
  | object fields => (fields.find? fun f => decide (f.1 = name)).map Prod.snd
  | _ => none

/-- The text of a string. -/
def asStr : Value → Option String
  | string s => some s
  | _ => none

end Value

/-- The service account that the client signs its requests with. -/
structure ServiceAccount where
  clientEmail : String
  privateKey : String
  tokenUri : String
deriving DecidableEq, Repr

/-- A response of the token endpoint; its body may be unreadable. -/
structure TokenResponse where
  status : Nat
  text : Except String String

/-- What lies outside of the program: the signature of a request, the endpoint, the texts of
the status codes and the JSON reader.  Errors are chains of messages. -/
structure TokenService where
  buildJwt : ServiceAccount → Except (List String) String
  post : String → List (String × String) → Except String TokenResponse
  statusText : Nat → String
  parseJson : String → Except String Value

/-- The kind of grant that the client asks for. -/
def jwtBearerGrant : String :=
  "urn:ietf:params:oauth:grant-type:jwt-bearer"

/-- {lit}`StatusCode::is_success`. -/
def isSuccess (status : Nat) : Bool :=
  decide (200 ≤ status ∧ status < 300)

/-- The text up to a byte offset; a cut inside a character panics. -/
def cutTo (n : Nat) (s : String) : Panics (List String) String :=
  match ByteText.sliceTo n s.toList with
  | some pre => .ok (String.ofList pre)
  | none => .panic

/-- Ask for an access token. -/
def fetchAccessToken (service : TokenService) (sa : ServiceAccount) :
    Panics (List String) String :=
  match service.buildJwt sa with
  | .error e => .err e
  | .ok jwt =>
      match service.post sa.tokenUri [("grant_type", jwtBearerGrant), ("assertion", jwt)] with
      | .error e => .err ["token endpoint request failed", e]
      | .ok resp =>
          let body := match resp.text with
            | .ok body => body
            | .error e => "(body unreadable: " ++ e ++ ")"
          if !isSuccess resp.status then
            .err ["token endpoint returned HTTP " ++ service.statusText resp.status ++ ": " ++ body]
          else
            match service.parseJson body with
            | .error e => .err ["token endpoint returned invalid JSON", e]
            | .ok json =>
                match (json.get "access_token").bind Value.asStr with
                | some token => .ok token
                | none =>
                    (cutTo (min (ByteText.byteLen body.toList) 200) body).bind fun start =>
                      .err ["token endpoint response missing access_token: " ++ start]

/-! ## The client -/

/-- An error that is worth another attempt, or one that is not. -/
inductive FetchError where
  | transient (message : String)
  | permanent (message : String)
deriving DecidableEq, Repr

namespace FetchError

/-- The text of an error. -/
def message : FetchError → String
  | transient m => m
  | permanent m => m

/-- Whether an error is worth another attempt. -/
def isTransient : FetchError → Bool
  | transient _ => true
  | permanent _ => false

end FetchError

/-- The token of the client, fetched if it has none; and the token it has afterwards. -/
def ensureToken (service : TokenService) (sa : ServiceAccount) (token : Option String) :
    Panics FetchError String × Option String :=
  match token with
  | some t => (.ok t, some t)
  | none =>
      match (fetchAccessToken service sa).mapErr fun e =>
        FetchError.transient ("token fetch failed: " ++ ": ".intercalate e) with
      | .ok t => (.ok t, some t)
      | .err e => (.err e, none)
      | .panic => (.panic, none)

/-- How often a request is attempted at most. -/
def maxAttempts : Nat := 5

/-- Attempt a request up to the limit; the error of the last attempt is that of the
request. -/
def withRetry {α : Type} (attempt : Nat → Panics FetchError α) : Panics String α :=
  (Panics.retry FetchError.isTransient attempt 1 (maxAttempts - 1)).mapErr FetchError.message

/-! ## An answer without a token -/

/-- The endpoint answers with success, and the body is JSON without a token that is text. -/
structure BadAnswer (service : TokenService) (sa : ServiceAccount) (body : String) : Prop where
  answered : ∃ jwt resp, service.buildJwt sa = .ok jwt ∧
    service.post sa.tokenUri [("grant_type", jwtBearerGrant), ("assertion", jwt)] = .ok resp ∧
    isSuccess resp.status = true ∧ resp.text = .ok body
  noToken : ∃ json, service.parseJson body = .ok json ∧
    (json.get "access_token").bind Value.asStr = none

/-- The text is not longer than 200 bytes, or a character ends at the 200th byte. -/
def CutAtBoundary (body : String) : Prop :=
  ByteText.byteLen body.toList ≤ 200 ∨
    ∃ pre post, body.toList = pre ++ post ∧ ByteText.byteLen pre = 200

/-- A bad answer is an error that takes no token, the client keeps to this error, and each of
its requests ends with one. -/
structure TokenErrors (service : TokenService) (sa : ServiceAccount) : Prop where
  fetch : (fetchAccessToken service sa).Fails
  ensure : ∃ message, ensureToken service sa none = (.err (.transient message), none)
  request : ∀ {α : Type} (request : Nat → String → Panics FetchError α),
    (withRetry fun n => (ensureToken service sa none).1.bind (request n)).Fails

variable {service : TokenService} {sa : ServiceAccount} {body : String}

/-- The cut to 200 bytes is possible when it does not fall inside a character. -/
theorem cutTo_ne_panic_iff (body : String) :
    cutTo (min (ByteText.byteLen body.toList) 200) body ≠ .panic ↔ CutAtBoundary body := by
  unfold cutTo CutAtBoundary
  rcases le_total (ByteText.byteLen body.toList) 200 with hshort | hlong
  · have hall := ByteText.sliceTo_append body.toList []
    rw [List.append_nil] at hall
    rw [min_eq_left hshort, hall]
    simp [hshort]
  · rw [min_eq_right hlong]
    cases hcut : ByteText.sliceTo 200 body.toList with
    | some pre =>
        obtain ⟨post, hbody, hlength⟩ := ByteText.sliceTo_eq_some_iff.mp hcut
        simp only [ne_eq, reduceCtorEq, not_false_eq_true, true_iff]
        exact Or.inr ⟨pre, post, hbody, hlength⟩
    | none =>
        have hnot : ∀ pre post, body.toList = pre ++ post → ByteText.byteLen pre ≠ 200 := by
          intro pre post hbody hlength
          rw [ByteText.sliceTo_eq_some_iff.mpr ⟨post, hbody, hlength⟩] at hcut
          cases hcut
        simp only [ne_eq, not_true_eq_false, false_iff]
        rintro (hle | ⟨pre, post, hbody, hlength⟩)
        · have hlength : ByteText.byteLen body.toList = 200 := le_antisymm hle hlong
          exact hnot body.toList [] (List.append_nil _).symm hlength
        · exact hnot pre post hbody hlength

/-- An answer without a token is an error when the cut is possible, and a panic otherwise. -/
theorem fetchAccessToken_of_badAnswer (h : BadAnswer service sa body) :
    fetchAccessToken service sa =
      (cutTo (min (ByteText.byteLen body.toList) 200) body).bind fun start =>
        .err ["token endpoint response missing access_token: " ++ start] := by
  obtain ⟨jwt, resp, hjwt, hpost, hstatus, htext⟩ := h.answered
  obtain ⟨json, hjson, hnone⟩ := h.noToken
  simp only [fetchAccessToken, hjwt, hpost, htext, hstatus, hjson, hnone]
  rfl

/-- An error of the token endpoint is one of the client. -/
theorem ensureToken_of_fails (h : (fetchAccessToken service sa).Fails) :
    ∃ message, ensureToken service sa none = (.err (.transient message), none) := by
  obtain ⟨e, he⟩ := h
  refine ⟨"token fetch failed: " ++ ": ".intercalate e, ?_⟩
  rw [ensureToken, he]
  rfl

/-- A request whose attempts all fail fails. -/
theorem withRetry_fails {α : Type} {attempt : Nat → Panics FetchError α}
    (h : ∀ n, (attempt n).Fails) : (withRetry attempt).Fails := by
  obtain ⟨e, he⟩ := Panics.retry_fails h 1 (maxAttempts - 1)
  rw [withRetry, he]
  exact ⟨e.message, rfl⟩

/-- An answer without a token is an error, for the client and for its requests, exactly when the
cut to 200 bytes does not fall inside a character. -/
theorem tokenErrors_iff (h : BadAnswer service sa body) :
    TokenErrors service sa ↔ CutAtBoundary body := by
  rw [← cutTo_ne_panic_iff]
  constructor
  · intro herrors hpanic
    have hfetch := fetchAccessToken_of_badAnswer h
    rw [hpanic] at hfetch
    exact herrors.fetch.not_panic hfetch
  · intro hcut
    have hfails : (fetchAccessToken service sa).Fails := by
      rw [fetchAccessToken_of_badAnswer h]
      cases hstart : cutTo (min (ByteText.byteLen body.toList) 200) body with
      | ok start => exact ⟨_, rfl⟩
      | err e => exact ⟨e, rfl⟩
      | panic => exact absurd hstart hcut
    obtain ⟨message, hensure⟩ := ensureToken_of_fails hfails
    refine ⟨hfails, ⟨message, hensure⟩, fun request => withRetry_fails fun n => ?_⟩
    rw [hensure]
    exact Panics.Fails.bind ⟨_, rfl⟩ (request n)

/-- Otherwise each request of the client panics. -/
theorem withRetry_panics (h : BadAnswer service sa body) (hcut : ¬CutAtBoundary body) {α : Type}
    (request : Nat → String → Panics FetchError α) :
    withRetry (fun n => (ensureToken service sa none).1.bind (request n)) = .panic := by
  have hpanic : cutTo (min (ByteText.byteLen body.toList) 200) body = .panic := by
    by_contra hne
    exact hcut ((cutTo_ne_panic_iff body).mp hne)
  have hensure : (ensureToken service sa none).1 = .panic := by
    rw [ensureToken, fetchAccessToken_of_badAnswer h, hpanic]
    rfl
  rw [withRetry, Panics.retry_panics (by rw [hensure]; rfl)]
  rfl

section Example

/-- A JSON reader for strings without escapes. -/
def parseQuoted (s : String) : Except String Value :=
  match s.toList with
  | '"' :: rest =>
      let inner := rest.dropLast
      if rest.getLast? = some '"' && inner.all fun c => c != '"' && c != '\\' && 32 ≤ c.toNat then
        .ok (.string (String.ofList inner))
      else .error "not a string"
  | _ => .error "not a string"

/-- An endpoint that answers with some body and status 200. -/
def answering (body : String) : TokenService where
  buildJwt _ := .ok "jwt"
  post _ _ := .ok { status := 200, text := .ok body }
  statusText _ := "200 OK"
  parseJson := parseQuoted

/-- A service account. -/
def testAccount : ServiceAccount where
  clientEmail := "sync@example.iam"
  privateKey := "key"
  tokenUri := "https://oauth2.googleapis.com/token"

/-- A quoted text of so many letters, a letter of two bytes, and one more letter. -/
def quotedBody (n : Nat) : String :=
  String.ofList ('"' :: (List.replicate n 'a' ++ ['é', 'b', '"']))

theorem parseQuoted_quotedBody (n : Nat) :
    parseQuoted (quotedBody n) =
      .ok (.string (String.ofList (List.replicate n 'a' ++ ['é', 'b']))) := by
  have htext : List.replicate n 'a' ++ ['é', 'b', '"'] =
      (List.replicate n 'a' ++ ['é', 'b']) ++ ['"'] := by simp
  rw [parseQuoted, quotedBody, String.toList_ofList, htext]
  split
  · next rest heq =>
      cases heq
      rw [List.getLast?_concat, List.dropLast_concat, if_pos (by simp)]
  · next hnot => exact absurd rfl (hnot _)

theorem badAnswer_quotedBody (n : Nat) :
    BadAnswer (answering (quotedBody n)) testAccount (quotedBody n) where
  answered := ⟨"jwt", _, rfl, rfl, rfl, rfl⟩
  noToken := ⟨_, parseQuoted_quotedBody n, rfl⟩

/-- The quotation mark and the letters of one byte. -/
theorem byteLen_quoted (n : Nat) : ByteText.byteLen ('"' :: List.replicate n 'a') = n + 1 := by
  rw [ByteText.byteLen_eq_length]
  · simp
  · intro c hc
    rcases List.mem_cons.mp hc with rfl | hc
    · rfl
    · rw [List.eq_of_mem_replicate hc]
      rfl

/-- An answer whose 200th byte lies inside a letter is a panic. -/
theorem not_tokenErrors :
    ¬∀ (service : TokenService) (sa : ServiceAccount) (body : String),
      BadAnswer service sa body → TokenErrors service sa := by
  intro hall
  have hbad := badAnswer_quotedBody 198
  have htext : (quotedBody 198).toList = ('"' :: List.replicate 198 'a') ++ ['é', 'b', '"'] := by
    rw [quotedBody, String.toList_ofList, List.cons_append]
  have hlength : ByteText.byteLen ['é', 'b', '"'] = 4 := by decide
  have hinside : ByteText.sliceTo 1 ['é', 'b', '"'] = none := by decide
  have hcut : cutTo (min (ByteText.byteLen (quotedBody 198).toList) 200) (quotedBody 198) =
      .panic := by
    have hbeyond := ByteText.sliceTo_byteLen_add ('"' :: List.replicate 198 'a') ['é', 'b', '"'] 1
    rw [byteLen_quoted, hinside] at hbeyond
    have hmin : min (198 + 1 + 4) 200 = 198 + 1 + 1 := by decide
    rw [cutTo, htext, ByteText.byteLen_append, byteLen_quoted, hlength, hmin, hbeyond,
      Option.map_none]
  have hpanic : fetchAccessToken (answering (quotedBody 198)) testAccount = .panic := by
    rw [fetchAccessToken_of_badAnswer hbad, hcut]
    rfl
  exact (hall _ _ _ hbad).fetch.not_panic hpanic

/-- An answer of the same kind whose 200th byte ends a letter is an error. -/
theorem tokenErrors_quotedBody :
    TokenErrors (answering (quotedBody 197)) testAccount := by
  refine (tokenErrors_iff (badAnswer_quotedBody 197)).mpr (Or.inr ?_)
  refine ⟨('"' :: List.replicate 197 'a') ++ ['é'], ['b', '"'], ?_, ?_⟩
  · rw [quotedBody, String.toList_ofList, List.append_assoc]
    rfl
  · rw [ByteText.byteLen_append, byteLen_quoted]
    decide

end Example

end Drive
end Statskboo
