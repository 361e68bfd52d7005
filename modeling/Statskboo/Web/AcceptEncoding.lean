import Statskboo.Web.Transparent
import Mathlib.Algebra.Order.Field.Rat
import Mathlib.Data.List.TakeWhile

/-!
# Which clients are sent compressed pages

An {lit}`accept-encoding` header is a list of codings with optional weights, and a coding
with weight zero is one that the client refuses.  The middleware looks for the coding
{lit}`br` by its name alone.

Main results:

- Theorem {lit}`clientAcceptsBrotli_headerText`: the middleware takes a header for one that
  allows {lit}`br` exactly when a coding has this name.
- Theorem {lit}`encoded_of_run`: in every run a compressed page goes to such clients only.
- Theorem {lit}`brotliRespected_iff`: no client that refuses {lit}`br` is sent it, exactly
  for the headers that do not name it or that give it a positive weight.
-/

namespace Statskboo
namespace Web

open KeyedTable Transition

/-! ## Headers as lists of codings -/

/-- Optional white space: blanks and tabs. -/
structure Ows where
  chars : List Char
  blank : ∀ c ∈ chars, c = ' ' ∨ c = '\t'

/-- A weight between zero and one with at most three decimals, if it has a point. -/
structure Weight where
  one : Bool
  decimals : Option (List (Fin 10))
  short : ∀ ds ∈ decimals, ds.length ≤ 3
  le_one : one = true → ∀ ds ∈ decimals, ∀ d ∈ ds, d = 0

namespace Weight

/-- The fraction that decimals stand for. -/
def fraction : List (Fin 10) → ℚ
  | [] => 0
  | d :: ds => (d.val + fraction ds) / 10

/-- The number that a weight stands for. -/
def value (w : Weight) : ℚ :=
  (if w.one then 1 else 0) + fraction (w.decimals.getD [])

/-- The text of a weight. -/
def text (w : Weight) : List Char :=
  (if w.one then '1' else '0') ::
    w.decimals.elim [] fun ds => '.' :: ds.map fun d => Nat.digitChar d.val

end Weight

/-- The characters of a token. -/
def isTchar (c : Char) : Bool :=
  c.isAlphanum || "!#$%&'*+-.^_`|~".toList.contains c

/-- The parameter of a coding: its weight, the white space around the semicolon, and whether
the name of the parameter is written as a capital letter. -/
structure WeightParam where
  before : Ows
  after : Ows
  capital : Bool
  weight : Weight

/-- An element of the list; one without a name is an empty element. -/
structure Coding where
  before : Ows
  name : List Char
  param : Option WeightParam
  after : Ows
  token : ∀ c ∈ name, isTchar c = true

/-- The text of the parameter of a coding. -/
def WeightParam.text (p : WeightParam) : List Char :=
  p.before.chars ++ (';' :: (p.after.chars ++ ((if p.capital then 'Q' else 'q') :: '=' ::
    p.weight.text)))

namespace Coding

/-- The text of a coding. -/
def text (c : Coding) : List Char :=
  c.before.chars ++ (c.name ++ (c.param.elim [] WeightParam.text ++ c.after.chars))

/-- The weight of a coding; it is one unless the coding says otherwise. -/
def weight (c : Coding) : ℚ :=
  c.param.elim 1 fun p => p.weight.value

end Coding

/-- The text of a header. -/
def headerText (codings : List Coding) : String :=
  String.ofList ([','].intercalate (codings.map Coding.text))

/-- The header has the coding {lit}`br` with a positive weight; names of codings are
compared without regard to case. -/
def AllowsBrotli (codings : List Coding) : Prop :=
  ∃ c ∈ codings, Text.eqIgnoreAsciiCase c.name "br".toList = true ∧ 0 < c.weight

/-! ## What the middleware reads -/

theorem toNat_of_isTchar {c : Char} (h : isTchar c = true) : c.toNat < 128 := by
  rcases Bool.or_eq_true_iff.mp h with halnum | hmark
  · have hrange := Text.isAlphanum_range halnum
    omega
  · have hmarks : ("!#$%&'*+-.^_`|~".toList.all fun m => decide (m.toNat < 128)) = true := by
      decide
    exact of_decide_eq_true (List.all_eq_true.mp hmarks c (List.contains_iff_mem.mp hmark))

/-- A token has no separator and no white space. -/
theorem isTchar_not_separator {c : Char} (h : isTchar c = true) :
    c ≠ ',' ∧ c ≠ ';' ∧ Text.isWhitespace c = false := by
  have hascii : ∀ n < 128, isTchar (Char.ofNat n) = true → Char.ofNat n ≠ ',' ∧
      Char.ofNat n ≠ ';' ∧ Text.isWhitespace (Char.ofNat n) = false := by decide +kernel
  have hchar := hascii c.toNat (toNat_of_isTchar h)
  rw [Char.ofNat_toNat] at hchar
  exact hchar h

namespace Ows

theorem isWhitespace_of_mem (w : Ows) : ∀ c ∈ w.chars, Text.isWhitespace c = true := by
  intro c hc
  rcases w.blank c hc with rfl | rfl <;> decide

theorem not_mem (w : Ows) {c : Char} (h : Text.isWhitespace c = false) : c ∉ w.chars := by
  intro hc
  rw [w.isWhitespace_of_mem c hc] at h
  cases h

end Ows

/-- A weight has digits and a point. -/
theorem Weight.comma_not_mem_text (w : Weight) : ',' ∉ w.text := by
  have hdigit : ∀ d : Fin 10, Nat.digitChar d.val ≠ ',' := by decide
  unfold Weight.text
  rw [List.mem_cons, not_or]
  refine ⟨by split_ifs <;> decide, ?_⟩
  cases w.decimals with
  | none => exact List.not_mem_nil
  | some ds =>
      rw [Option.elim_some, List.mem_cons, not_or]
      refine ⟨by decide, fun hmem => ?_⟩
      obtain ⟨d, -, hd⟩ := List.mem_map.mp hmem
      exact hdigit d hd

theorem WeightParam.comma_not_mem_text (p : WeightParam) : ',' ∉ p.text := by
  have hq : ',' ≠ (if p.capital then 'Q' else 'q') := by split_ifs <;> decide
  simp [WeightParam.text, p.before.not_mem (c := ',') (by decide),
    p.after.not_mem (c := ',') (by decide), hq, p.weight.comma_not_mem_text]

namespace Coding

theorem comma_not_mem_text (c : Coding) : ',' ∉ c.text := by
  have hname : ',' ∉ c.name := fun h => (isTchar_not_separator (c.token _ h)).1 rfl
  have hparam : ',' ∉ c.param.elim [] WeightParam.text := by
    cases c.param with
    | none => exact List.not_mem_nil
    | some p => exact p.comma_not_mem_text
  simp [Coding.text, c.before.not_mem (c := ',') (by decide),
    c.after.not_mem (c := ',') (by decide), hname, hparam]

/-- What stands before the first semicolon of a coding is its name among white space. -/
theorem head_splitOn_text (c : Coding) :
    ∃ w : Ows, ((c.text.splitOn ';').headD []) = c.before.chars ++ (c.name ++ w.chars) := by
  have hname : ';' ∉ c.name := fun h => (isTchar_not_separator (c.token _ h)).2.1 rfl
  have hblank : ∀ w : Ows, ';' ∉ w.chars := fun w => w.not_mem (by decide)
  have hnot : ∀ w : Ows, ';' ∉ c.before.chars ++ (c.name ++ w.chars) := by
    intro w
    simp [hblank, hname]
  unfold Coding.text
  cases c.param with
  | none =>
      refine ⟨c.after, ?_⟩
      rw [Option.elim_none, List.nil_append, List.splitOn_eq_singleton (hnot _)]
      rfl
  | some p =>
      refine ⟨p.before, ?_⟩
      have htext : c.before.chars ++ (c.name ++ (p.text ++ c.after.chars)) =
          (c.before.chars ++ (c.name ++ p.before.chars)) ++ ';' :: (p.after.chars ++
            ((if p.capital then 'Q' else 'q') :: '=' :: p.weight.text) ++ c.after.chars) := by
        simp [WeightParam.text]
      rw [Option.elim_some, htext, List.splitOn_append_cons_self_of_not_mem (hnot _)]
      rfl

/-- A coding is read as its name. -/
theorem trim_head_splitOn_text (c : Coding) :
    Text.trim ((c.text.splitOn ';').headD []) = c.name := by
  obtain ⟨w, hw⟩ := c.head_splitOn_text
  rw [hw]
  have hspace : ∀ d ∈ c.name, Text.isWhitespace d = false :=
    fun d hd => (isTchar_not_separator (c.token d hd)).2.2
  by_cases hne : c.name = []
  · rw [hne, List.nil_append, Text.trim]
    have hblank : ∀ d ∈ c.before.chars ++ w.chars, Text.isWhitespace d = true := by
      rw [List.forall_mem_append]
      exact ⟨c.before.isWhitespace_of_mem, w.isWhitespace_of_mem⟩
    rw [List.dropWhile_eq_nil_iff.mpr hblank]
    rfl
  · refine Text.trim_append c.before.isWhitespace_of_mem w.isWhitespace_of_mem hne ⟨?_, ?_⟩
    · exact fun d hd => hspace d (List.mem_of_mem_head? hd)
    · exact fun d hd => hspace d (List.mem_of_mem_getLast? hd)

end Coding

/-- A header is taken for one that allows {lit}`br` exactly when a coding has this name. -/
theorem clientAcceptsBrotli_headerText {codings : List Coding} {req : Request}
    (h : req.acceptEncoding = some (headerText codings)) :
    clientAcceptsBrotli req = true ↔ ∃ c ∈ codings, c.name = "br".toList := by
  unfold clientAcceptsBrotli
  rw [h]
  simp only [headerText, String.toList_ofList]
  by_cases hne : codings = []
  · subst hne
    simp [Text.trim]
  · rw [List.splitOn_intercalate]
    · simp only [List.any_map, List.any_eq_true, Function.comp_apply, decide_eq_true_eq,
        Coding.trim_head_splitOn_text]
    · intro text htext
      obtain ⟨c, -, rfl⟩ := List.mem_map.mp htext
      exact c.comma_not_mem_text
    · rwa [ne_eq, List.map_eq_nil_iff]

/-! ## What the middleware answers -/

/-- The handlers leave the encoding of a page to the middleware. -/
def NotEncoded (handler : Handler) : Prop :=
  ∀ db req, headerValue (handler db req).headers "content-encoding" = none

/-- A response with an encoding goes to a client that the middleware takes for one that
allows it. -/
def EncodedFor (req : Request) (resp : Response) : Prop :=
  headerValue resp.headers "content-encoding" = none ∨ clientAcceptsBrotli req = true

/-- No stored page names an encoding. -/
def PlainEntries (cache : Cache) : Prop :=
  ∀ key entry, cache.get key = some entry → headerValue entry.headers "content-encoding" = none

variable {codec : Codec} {handler : Handler} {s s' : System} {req : Request} {resp : Response}

/-- A page is stored without the encoding of its response. -/
theorem headerValue_of_pageEntry {version : Nat} {entry : CachedEntry}
    (h : pageEntry codec resp version = some entry) :
    headerValue entry.headers "content-encoding" = none := by
  obtain ⟨bytes, compressed, -, -, -, rfl⟩ := exists_of_pageEntry h
  exact headerValue_removeHeader

theorem plainEntries_store {cache : Cache} (h : PlainEntries cache) (req : Request)
    (resp : Response) (version : Nat) : PlainEntries (store codec cache req resp version).1 := by
  intro key entry hget
  rcases get_store hget with ⟨hentry, -⟩ | hold
  · exact headerValue_of_pageEntry hentry
  · exact h key entry hold

/-- A page from the cache is compressed for clients that allow it only. -/
theorem encodedFor_of_hit {cache : Cache} (hcache : PlainEntries cache)
    (h : lookup codec cache req = .hit resp) : EncodedFor req resp := by
  by_cases haccepts : clientAcceptsBrotli req = true
  · exact Or.inr haccepts
  · left
    simp only [lookup, haccepts, Bool.false_eq_true, if_false] at h
    split_ifs at h
    cases hget : cache.get req.uri with
    | none =>
        rw [hget] at h
        cases h
    | some entry =>
        cases hbody : codec.decompress entry.body with
        | none =>
            simp only [hget, hbody] at h
            cases h
        | some bytes =>
            simp only [hget, hbody] at h
            cases h
            exact hcache req.uri entry hget

/-- So is a page that is stored and answered. -/
theorem encodedFor_store (cache : Cache) {version : Nat}
    (h : headerValue resp.headers "content-encoding" = none) :
    EncodedFor req (store codec cache req resp version).2 := by
  by_cases haccepts : clientAcceptsBrotli req = true
  · exact Or.inr haccepts
  · left
    simp only [store, haccepts, Bool.false_eq_true, if_false]
    split_ifs
    · exact h
    · cases resp.body with
      | none => rfl
      | some bytes =>
          cases pageEntry codec resp version with
          | none => exact h
          | some entry => exact h

/-- What is true of a request, by where it stands. -/
def FlightEncoded (req : Request) : Flight → Prop
  | .rendered resp _ => headerValue resp.headers "content-encoding" = none
  | .answered resp => EncodedFor req resp
  | _ => True

/-- Stored and rendered pages name no encoding, and answers are encoded for their clients. -/
structure EncodingInv (s : System) : Prop where
  plain : PlainEntries s.cache
  flights : ∀ req f, (req, f) ∈ s.flights → FlightEncoded req f

theorem encodingInv_start (db : Db) (maxBytes : Nat) : EncodingInv (start db maxBytes) where
  plain key entry h := by cases h
  flights req f h := by cases h

/-- A request that moves on. -/
theorem encodingInv_setFlight (h : EncodingInv s) (i : Nat) {f : Flight}
    (hf : FlightEncoded req f) : EncodingInv (s.setFlight i req f) where
  plain := h.plain
  flights := forall_setFlight h.flights i hf

theorem encodingInv_step (hhandler : NotEncoded handler) (s : System) (l : Label) (s' : System)
    (h : EncodingInv s) (hstep : step codec handler s l = some s') : EncodingInv s' := by
  cases l with
  | arrive req =>
      cases hstep
      exact ⟨h.plain, forall_arrived h.flights trivial⟩
  | lookup i =>
      obtain ⟨req, -, ⟨-, rfl⟩ | ⟨resp, hlookup, rfl⟩ | ⟨-, rfl⟩⟩ := step_lookup hstep
      · exact encodingInv_setFlight h i trivial
      · exact encodingInv_setFlight h i (encodedFor_of_hit h.plain hlookup)
      · exact encodingInv_setFlight h i trivial
  | render i =>
      obtain ⟨req, ⟨-, rfl⟩ | ⟨-, rfl⟩⟩ := step_render hstep
      · exact encodingInv_setFlight h i (Or.inl (hhandler s.db req))
      · exact encodingInv_setFlight h i (hhandler s.db req)
  | store i =>
      obtain ⟨req, resp, version, hflight, rfl⟩ := step_store hstep
      have hplain : headerValue resp.headers "content-encoding" = none :=
        h.flights req _ (List.mem_of_getElem? hflight)
      have hset := encodingInv_setFlight h i
        (f := .answered (Web.store codec s.cache req resp version).2)
        (encodedFor_store s.cache hplain)
      exact ⟨plainEntries_store h.plain req resp version, hset.flights⟩
  | write l transaction =>
      cases hstep
      exact ⟨h.plain, h.flights⟩
  | clear l =>
      cases hstep
      exact ⟨(encodingInv_start s.db s.cache.maxBytes).plain, h.flights⟩

/-- In every run an encoded page goes to a client that the middleware takes for one that
allows it. -/
theorem encoded_of_run (hhandler : NotEncoded handler) {db : Db} {maxBytes : Nat}
    {labels : List Label} (hrun : run (step codec handler) (start db maxBytes) labels = some s)
    (hmem : (req, .answered resp) ∈ s.flights) : EncodedFor req resp :=
  (run_invariant (encodingInv_step hhandler) (encodingInv_start db maxBytes) hrun).flights
    req _ hmem

/-! ## Clients that refuse -/

/-- Only a header that allows {lit}`br` is taken for one, and in every run only clients with
such a header are sent it. -/
def BrotliRespected (codings : List Coding) : Prop :=
  (∀ req, req.acceptEncoding = some (headerText codings) → clientAcceptsBrotli req = true →
    AllowsBrotli codings) ∧
  ∀ codec handler, NotEncoded handler → ∀ db maxBytes labels s,
    run (step codec handler) (start db maxBytes) labels = some s →
      ∀ req resp, (req, .answered resp) ∈ s.flights →
        req.acceptEncoding = some (headerText codings) →
          headerValue resp.headers "content-encoding" = some "br" → AllowsBrotli codings

/-- A request for the list of leagues with some header. -/
def requestWith (codings : List Coding) : Request where
  method := "GET"
  uri := "/leagues"
  path := "/leagues"
  acceptEncoding := some (headerText codings)

/-- No client that refuses {lit}`br` is sent it, exactly when the header does not name the
coding {lit}`br` or gives it a positive weight. -/
theorem brotliRespected_iff (codings : List Coding) :
    BrotliRespected codings ↔
      ((∃ c ∈ codings, c.name = "br".toList) → AllowsBrotli codings) := by
  constructor
  · rintro ⟨haccepts, -⟩ hnamed
    exact haccepts (requestWith codings) rfl ((clientAcceptsBrotli_headerText rfl).mpr hnamed)
  · intro hallows
    constructor
    · exact fun req hheader haccepts =>
        hallows ((clientAcceptsBrotli_headerText hheader).mp haccepts)
    · intro codec handler hhandler db maxBytes labels s hrun req resp hmem hheader hencoded
      rcases encoded_of_run hhandler hrun hmem with hnone | haccepts
      · rw [hnone] at hencoded
        cases hencoded
      · exact hallows ((clientAcceptsBrotli_headerText hheader).mp haccepts)

section Example

/-- The coding {lit}`br` with weight zero. -/
def refusedBr : Coding where
  before := ⟨[], by simp⟩
  name := "br".toList
  param := some ⟨⟨[], by simp⟩, ⟨[], by simp⟩, false, ⟨false, none, by simp, by simp⟩⟩
  after := ⟨[], by simp⟩
  token := by simp; decide

theorem headerText_refusedBr : headerText [refusedBr] = "br;q=0" := by
  decide +kernel

/-- A client that refuses {lit}`br` is sent it. -/
theorem not_brotliRespected :
    headerText [refusedBr] = "br;q=0" ∧ ¬∀ codings, BrotliRespected codings := by
  refine ⟨headerText_refusedBr, fun hall => ?_⟩
  have haccepts : clientAcceptsBrotli (requestWith [refusedBr]) = true := by decide +kernel
  obtain ⟨c, hc, -, hpos⟩ := (hall [refusedBr]).1 (requestWith [refusedBr]) rfl haccepts
  rw [List.mem_singleton.mp hc] at hpos
  exact absurd hpos (by decide +kernel)

end Example

end Web
end Statskboo
