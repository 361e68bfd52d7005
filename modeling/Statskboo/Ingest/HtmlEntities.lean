import Statskboo.Lib.ByteText
import Statskboo.Numbers
import Statskboo.Text

/-!
# HTML entities

The team listing writes some characters of a title as entities: by one of six names, or by
the number of the character in decimal or hexadecimal.  The decoder goes from ampersand to
ampersand; an ampersand that starts no entity stands for itself.  Slices are taken at byte
offsets, and a slice that the program could not take is none.

Main results:

- Theorem {lit}`isSome_decodeHtmlEntities`: the decoder ends on every text, and each of its
  slices exists.
- Theorem {lit}`decodeHtmlEntities_of_encodes`: what is written with entities is read back,
  each entity once.
-/

namespace Statskboo
namespace Wftda

open ByteText Numbers

/-- {lit}`char::from_u32`. -/
def charFromU32 (n : Nat) : Option Char :=
  if h : n.isValidChar then some (Char.ofNatAux n h) else none

/-- {lit}`char::to_digit` for the radix 16. -/
def hexDigit (c : Char) : Option Nat :=
  if c.isDigit then some (c.toNat - '0'.toNat)
  else if 'a'.toNat ≤ c.toNat ∧ c.toNat ≤ 'f'.toNat then some (c.toNat - 'a'.toNat + 10)
  else if 'A'.toNat ≤ c.toNat ∧ c.toNat ≤ 'F'.toNat then some (c.toNat - 'A'.toNat + 10)
  else none

/-- The number of a hexadecimal numeral. -/
def ofHexDigits (ds : List Char) : Nat :=
  ds.foldl (fun n d => 16 * n + (hexDigit d).getD 0) 0

/-- {lit}`u32::from_str_radix` for the radix 16. -/
def parseHex (s : List Char) : Option Nat :=
  let ds := if s.head? = some '+' then s.tail else s
  if ds ≠ [] ∧ ds.all (fun d => (hexDigit d).isSome) = true ∧ ofHexDigits ds < 2 ^ 32 then
    some (ofHexDigits ds)
  else none

/-- The number of a numeric entity, after its number sign. -/
def parseCode : List Char → Option Nat
  | 'x' :: hex => parseHex hex
  | 'X' :: hex => parseHex hex
  | code => parseUnsigned (2 ^ 32 - 1) code

/-- The entities that have a name. -/
def namedEntities : List (String × Char) :=
  [("amp", '&'), ("lt", '<'), ("gt", '>'), ("quot", Char.ofNat 0x22), ("apos", Char.ofNat 0x27),
    ("nbsp", Char.ofNat 0xa0)]

/-- The character of an entity, given what stands between ampersand and semicolon. -/
def decodeEntity (entity : List Char) : Option Char :=
  match namedEntities.find? fun e => decide (e.1.toList = entity) with
  | some e => some e.2
  | none =>
      match entity with
      | '#' :: code => (parseCode code).bind charFromU32
      | _ => none

/-- The entity at the start of a text that begins with an ampersand, if there is one, and
what follows it. -/
def entityAt (tail : List Char) : Option (Option (Char × List Char)) :=
  match find [';'] tail with
  | none => some none
  | some semi =>
      if semi ≤ 10 then do
        let entity ← slice 1 semi tail
        match decodeEntity entity with
        | none => some none
        | some c => do
            let rest ← sliceFrom (semi + 1) tail
            some (some (c, rest))
      else some none

/-- The decoder loop: the text that is left, and what is decoded so far. -/
def decodeLoop : Nat → List Char → List Char → Option (List Char)
  | 0, _, _ => none
  | fuel + 1, rest, out =>
      match find ['&'] rest with
      | none => some (out ++ rest)
      | some pos => do
          let before ← sliceTo pos rest
          let tail ← sliceFrom pos rest
          match ← entityAt tail with
          | some (c, rest) => decodeLoop fuel rest (out ++ before ++ [c])
          | none => do
              let rest ← sliceFrom 1 tail
              decodeLoop fuel rest (out ++ before ++ ['&'])

/-- Decode the entities of a text. -/
def decodeHtmlEntities (s : List Char) : Option (List Char) :=
  if '&' ∈ s then decodeLoop (s.length + 1) s [] else some s

/-! ## One step of the decoder -/

variable {c : Char} {name rest out s t : List Char} {fuel : Nat}

theorem entityAt_of_notMem (h : ';' ∉ s) : entityAt ('&' :: s) = some none := by
  have hnone : find [';'] ('&' :: s) = none :=
    find_singleton_eq_none.mpr fun hmem => by
      rcases List.mem_cons.mp hmem with heq | hs
      · exact absurd heq (by decide)
      · exact h hs
  rw [entityAt, hnone]

theorem entityAt_append (h : ';' ∉ name) (rest : List Char) :
    entityAt ('&' :: (name ++ ';' :: rest)) =
      some (if 1 + byteLen name ≤ 10 then (decodeEntity name).map fun c => (c, rest)
        else none) := by
  have hlength : byteLen ('&' :: name) = 1 + byteLen name := byteLen_cons '&' name
  have hmem : ';' ∉ '&' :: name := fun hmem => by
    rcases List.mem_cons.mp hmem with heq | hs
    · exact absurd heq (by decide)
    · exact h hs
  have hfind : find [';'] ('&' :: (name ++ ';' :: rest)) = some (1 + byteLen name) := by
    rw [← hlength]
    exact find_singleton hmem rest
  have hslice : slice 1 (1 + byteLen name) ('&' :: (name ++ ';' :: rest)) = some name :=
    slice_append ['&'] name (';' :: rest)
  have hrest : sliceFrom (1 + byteLen name + 1) ('&' :: (name ++ ';' :: rest)) = some rest := by
    have hprefix := sliceFrom_append ('&' :: (name ++ [';'])) rest
    have hbytes : byteLen ('&' :: (name ++ [';'])) = 1 + byteLen name + 1 := by
      rw [byteLen_cons, byteLen_append, ← Nat.add_assoc]
      rfl
    rwa [hbytes, List.cons_append, List.append_assoc] at hprefix
  rw [entityAt, hfind]
  simp only [hslice, hrest, Option.bind_eq_bind, Option.bind_some]
  split_ifs with hle
  · cases decodeEntity name <;> rfl
  · rfl

theorem decodeLoop_of_notMem (h : '&' ∉ s) : decodeLoop (fuel + 1) s out = some (out ++ s) := by
  rw [decodeLoop, find_singleton_eq_none.mpr h]

/-- One round of the decoder, at the first ampersand. -/
theorem decodeLoop_append (h : '&' ∉ s) :
    decodeLoop (fuel + 1) (s ++ '&' :: t) out =
      (entityAt ('&' :: t)).bind fun found =>
        match found with
        | some (c, rest) => decodeLoop fuel rest (out ++ s ++ [c])
        | none => decodeLoop fuel t (out ++ s ++ ['&']) := by
  have htail : sliceFrom 1 ('&' :: t) = some t := sliceFrom_append ['&'] t
  rw [decodeLoop, find_singleton h]
  simp only [sliceTo_append, sliceFrom_append, htail, Option.bind_eq_bind, Option.bind_some]

/-- A character that is no ampersand stands for itself. -/
theorem decodeLoop_cons (hc : c ≠ '&') :
    decodeLoop (fuel + 1) (c :: s) out = decodeLoop (fuel + 1) s (out ++ [c]) := by
  by_cases hs : '&' ∈ s
  · obtain ⟨pre, post, rfl, hpre⟩ := List.eq_append_cons_of_mem hs
    have hpre' : '&' ∉ c :: pre := by simp [hc.symm, hpre]
    rw [← List.cons_append, decodeLoop_append hpre', decodeLoop_append hpre]
    simp only [List.append_assoc, List.singleton_append]
  · have hs' : '&' ∉ c :: s := by simp [hc.symm, hs]
    rw [decodeLoop_of_notMem hs', decodeLoop_of_notMem hs, List.append_assoc]
    rfl

/-! ## The decoder ends -/

theorem isSome_decodeLoop (h : s.length < fuel) (out : List Char) :
    (decodeLoop fuel s out).isSome = true := by
  induction fuel generalizing s out with
  | zero => exact absurd h (Nat.not_lt_zero _)
  | succ fuel ih =>
      by_cases hs : '&' ∈ s
      · obtain ⟨pre, post, rfl, hpre⟩ := List.eq_append_cons_of_mem hs
        have hpost : post.length < fuel := by
          rw [List.length_append, List.length_cons] at h
          omega
        rw [decodeLoop_append hpre]
        by_cases hsemi : ';' ∈ post
        · obtain ⟨name, rest, rfl, hname⟩ := List.eq_append_cons_of_mem hsemi
          rw [entityAt_append hname, Option.bind_some]
          split
          · next c rest' hfound =>
              have hrest : rest' = rest := by
                split_ifs at hfound
                obtain ⟨d, -, hpair⟩ := Option.map_eq_some_iff.mp hfound
                exact (Prod.mk.inj hpair).2.symm
              apply ih
              rw [hrest]
              rw [List.length_append, List.length_cons] at hpost
              omega
          · exact ih hpost _
        · rw [entityAt_of_notMem hsemi]
          exact ih hpost _
      · rw [decodeLoop_of_notMem hs]
        rfl

/-- The decoder ends on every text, and each of its slices exists. -/
theorem isSome_decodeHtmlEntities (s : List Char) : (decodeHtmlEntities s).isSome = true := by
  unfold decodeHtmlEntities
  split_ifs
  · exact isSome_decodeLoop (Nat.lt_succ_self _) []
  · rfl

/-! ## Text that is written with entities -/

/-- What may stand between ampersand and semicolon for a character. -/
inductive EntityName : Char → List Char → Prop where
  | named {name : String} {c : Char} (h : (name, c) ∈ namedEntities) : EntityName c name.toList
  | decimal {c : Char} {ds : List Char} (hne : ds ≠ []) (hds : ∀ d ∈ ds, d.isDigit = true)
      (hvalue : ofDigits ds = c.toNat) : EntityName c ('#' :: ds)
  | hexadecimal {c x : Char} {ds : List Char} (hx : x = 'x' ∨ x = 'X') (hne : ds ≠ [])
      (hds : ∀ d ∈ ds, (hexDigit d).isSome = true) (hvalue : ofHexDigits ds = c.toNat) :
      EntityName c ('#' :: x :: ds)

/-- A text with some characters written as entities of ten characters at most, among them
every ampersand, every opening angle bracket and every double quote. -/
inductive Encodes : List Char → List Char → Prop where
  | nil : Encodes [] []
  | plain {c : Char} {t s : List Char} (hamp : c ≠ '&') (hlt : c ≠ '<') (hquot : c ≠ Char.ofNat 0x22)
      (h : Encodes t s) : Encodes (c :: t) (c :: s)
  | entity {c : Char} {name t s : List Char} (hname : EntityName c name)
      (hlength : ('&' :: (name ++ [';'])).length ≤ 10) (h : Encodes t s) :
      Encodes (c :: t) ('&' :: (name ++ ';' :: s))

/-- The ASCII characters that end no entity and belong to no markup. -/
def isEntityChar (c : Char) : Bool :=
  decide (c.toNat < 128) && c != ';' && c != '<' && c != Char.ofNat 0x22

theorem isEntityChar_of_toNat {d : Char} (hascii : d.toNat < 128) (hsemi : d.toNat ≠ 59)
    (hlt : d.toNat ≠ 60) (hquot : d.toNat ≠ 34) : isEntityChar d = true := by
  have hne : ∀ e : Char, d.toNat ≠ e.toNat → (d != e) = true := fun e he =>
    bne_iff_ne.mpr fun heq => he (congrArg Char.toNat heq)
  unfold isEntityChar
  rw [decide_eq_true hascii, hne ';' hsemi, hne '<' hlt, hne (Char.ofNat 0x22) hquot]
  rfl

theorem isEntityChar_of_isDigit {d : Char} (h : d.isDigit = true) : isEntityChar d = true := by
  obtain ⟨hlo, hhi⟩ : 48 ≤ d.toNat ∧ d.toNat ≤ 57 := Char.isDigit_iff_toNat.mp h
  exact isEntityChar_of_toNat (by omega) (by omega) (by omega) (by omega)

theorem isEntityChar_of_hexDigit {d : Char} (h : (hexDigit d).isSome = true) :
    isEntityChar d = true := by
  unfold hexDigit at h
  split_ifs at h with hdigit hlower hupper
  · exact isEntityChar_of_isDigit hdigit
  · obtain ⟨hlo, hhi⟩ : 97 ≤ d.toNat ∧ d.toNat ≤ 102 := hlower
    exact isEntityChar_of_toNat (by omega) (by omega) (by omega) (by omega)
  · obtain ⟨hlo, hhi⟩ : 65 ≤ d.toNat ∧ d.toNat ≤ 70 := hupper
    exact isEntityChar_of_toNat (by omega) (by omega) (by omega) (by omega)
  · cases h

theorem EntityName.isEntityChar (h : EntityName c name) : ∀ d ∈ name, isEntityChar d = true := by
  have hhash : Wftda.isEntityChar '#' = true := by decide
  cases h with
  | named hmem =>
      have hall : ∀ e ∈ namedEntities, e.1.toList.all Wftda.isEntityChar = true := by
        decide
      exact List.all_eq_true.mp (hall _ hmem)
  | decimal hne hds hvalue =>
      intro d hd
      rcases List.mem_cons.mp hd with rfl | hd
      · exact hhash
      · exact isEntityChar_of_isDigit (hds d hd)
  | hexadecimal hx hne hds hvalue =>
      intro d hd
      rcases List.mem_cons.mp hd with rfl | hd
      · exact hhash
      · rcases List.mem_cons.mp hd with rfl | hd
        · rcases hx with rfl | rfl <;> decide
        · exact isEntityChar_of_hexDigit (hds d hd)

theorem utf8Size_of_isEntityChar {d : Char} (h : isEntityChar d = true) : d.utf8Size = 1 := by
  have hascii : d.toNat < 128 := by
    simp only [isEntityChar, Bool.and_eq_true, decide_eq_true_iff] at h
    exact h.1.1.1
  rw [Char.utf8Size_eq_one_iff, UInt32.le_iff_toNat_le]
  exact Nat.le_of_lt_succ hascii

theorem charFromU32_toNat (c : Char) : charFromU32 c.toNat = some c := by
  have hvalid : c.toNat.isValidChar := c.valid
  rw [charFromU32, dif_pos hvalid]
  rfl

theorem parseHex_of_hexDigits {ds : List Char} (hne : ds ≠ [])
    (hds : ∀ d ∈ ds, (hexDigit d).isSome = true) (hlt : ofHexDigits ds < 2 ^ 32) :
    parseHex ds = some (ofHexDigits ds) := by
  have hplus : ds.head? ≠ some '+' := by
    intro hhead
    exact absurd (hds '+' (List.mem_of_mem_head? hhead)) (by decide)
  unfold parseHex
  rw [if_neg hplus]
  exact if_pos ⟨hne, List.all_eq_true.mpr hds, hlt⟩

/-- No name starts with a number sign. -/
theorem find?_namedEntities_hash (code : List Char) :
    (namedEntities.find? fun e => decide (e.1.toList = '#' :: code)) = none := by
  have hhead : ∀ e ∈ namedEntities, e.1.toList.head? ≠ some '#' := by decide
  refine List.find?_eq_none.mpr fun e he heq => hhead e he ?_
  rw [of_decide_eq_true heq]
  rfl

theorem decodeEntity_hash (code : List Char) :
    decodeEntity ('#' :: code) = (parseCode code).bind charFromU32 := by
  unfold decodeEntity
  rw [find?_namedEntities_hash]
  rfl

theorem parseCode_of_digits {ds : List Char} (hne : ds ≠ []) (hds : ∀ d ∈ ds, d.isDigit = true)
    (hlt : ofDigits ds < 2 ^ 32) : parseCode ds = some (ofDigits ds) := by
  unfold parseCode
  split
  · exact absurd (hds 'x' List.mem_cons_self) (by decide)
  · exact absurd (hds 'X' List.mem_cons_self) (by decide)
  · exact parseUnsigned_of_digits hne hds (Nat.le_pred_of_lt hlt)

/-- The entity of a character is read as it. -/
theorem EntityName.decodeEntity_eq (h : EntityName c name) : decodeEntity name = some c := by
  have hbound : c.toNat < 2 ^ 32 := c.val.toNat_lt
  cases h with
  | named hmem =>
      have hall : ∀ e ∈ namedEntities, decodeEntity e.1.toList = some e.2 := by decide
      exact hall _ hmem
  | decimal hne hds hvalue =>
      rw [← hvalue] at hbound
      rw [decodeEntity_hash, parseCode_of_digits hne hds hbound, hvalue, Option.bind_some,
        charFromU32_toNat]
  | hexadecimal hx hne hds hvalue =>
      rw [← hvalue] at hbound
      have hcode := parseHex_of_hexDigits hne hds hbound
      rw [hvalue] at hcode
      rw [decodeEntity_hash]
      rcases hx with rfl | rfl
      · rw [parseCode, hcode, Option.bind_some, charFromU32_toNat]
      · rw [parseCode, hcode, Option.bind_some, charFromU32_toNat]

theorem notMem_of_isEntityChar {d : Char} (hd : isEntityChar d = false)
    (h : ∀ e ∈ name, isEntityChar e = true) : d ∉ name := by
  intro hmem
  rw [h d hmem] at hd
  cases hd

/-- A name is short enough for the decoder when its entity has ten characters at most. -/
theorem EntityName.byteLen_le (h : EntityName c name)
    (hlength : ('&' :: (name ++ [';'])).length ≤ 10) : 1 + byteLen name ≤ 10 := by
  rw [byteLen_eq_length fun d hd => utf8Size_of_isEntityChar (h.isEntityChar d hd)]
  rw [List.length_cons, List.length_append, List.length_singleton] at hlength
  omega

/-- The decoder loop reads back what is written with entities. -/
theorem decodeLoop_of_encodes (h : Encodes t s) (hfuel : s.length < fuel) (out : List Char) :
    decodeLoop fuel s out = some (out ++ t) := by
  induction h generalizing fuel out with
  | nil =>
      obtain ⟨fuel, rfl⟩ := Nat.exists_eq_succ_of_ne_zero (Nat.ne_zero_of_lt hfuel)
      rw [decodeLoop_of_notMem List.not_mem_nil]
  | @plain c t s hamp _ _ h ih =>
      obtain ⟨fuel, rfl⟩ := Nat.exists_eq_succ_of_ne_zero (Nat.ne_zero_of_lt hfuel)
      rw [List.length_cons] at hfuel
      rw [decodeLoop_cons hamp, ih (by omega), List.append_assoc]
      rfl
  | @entity c name t s hname hlength h ih =>
      obtain ⟨fuel, rfl⟩ := Nat.exists_eq_succ_of_ne_zero (Nat.ne_zero_of_lt hfuel)
      have hshorter : s.length < fuel := by
        rw [List.length_cons, List.length_append, List.length_cons] at hfuel
        omega
      have hsemi : ';' ∉ name := notMem_of_isEntityChar (by decide) hname.isEntityChar
      have hround : decodeLoop (fuel + 1) ([] ++ '&' :: (name ++ ';' :: s)) out = _ :=
        decodeLoop_append List.not_mem_nil
      rw [List.nil_append] at hround
      rw [hround, entityAt_append hsemi, if_pos (hname.byteLen_le hlength), hname.decodeEntity_eq,
        Option.map_some, Option.bind_some]
      dsimp only
      rw [ih hshorter, List.append_nil, List.append_assoc]
      rfl

/-- What is written with entities is read back, each entity once. -/
theorem decodeHtmlEntities_of_encodes (h : Encodes t s) : decodeHtmlEntities s = some t := by
  unfold decodeHtmlEntities
  split_ifs with hamp
  · exact decodeLoop_of_encodes h (Nat.lt_succ_self _) []
  · induction h with
    | nil => rfl
    | plain _ _ _ _ ih =>
        have hrest := ih fun hmem => hamp (List.mem_cons_of_mem _ hmem)
        rw [Option.some.inj hrest]
    | entity _ _ _ _ => exact absurd List.mem_cons_self hamp

example : decodeHtmlEntities "&amp;lt; &#39;&nope;".toList = some "&lt; '&nope;".toList := by
  decide +kernel

/-! ## What the encoded text looks like -/

/-- Markup does not occur in text that is written with entities. -/
theorem Encodes.notMem {d : Char} (h : Encodes t s) (hd : d = '<' ∨ d = Char.ofNat 0x22) : d ∉ s := by
  have hentity : isEntityChar d = false := by rcases hd with rfl | rfl <;> decide
  have hmark : d ≠ '&' ∧ d ≠ ';' := by rcases hd with rfl | rfl <;> decide
  induction h with
  | nil => exact List.not_mem_nil
  | plain _ hlt hquot _ ih =>
      intro hmem
      rcases List.mem_cons.mp hmem with rfl | hmem
      · rcases hd with rfl | rfl
        · exact hlt rfl
        · exact hquot rfl
      · exact ih hmem
  | entity hname _ _ ih =>
      intro hmem
      rcases List.mem_cons.mp hmem with heq | hmem
      · exact hmark.1 heq
      rcases List.mem_append.mp hmem with hmem | hmem
      · exact notMem_of_isEntityChar hentity hname.isEntityChar hmem
      · rcases List.mem_cons.mp hmem with heq | hmem
        · exact hmark.2 heq
        · exact ih hmem

theorem Encodes.ne_nil (h : Encodes t s) (ht : t ≠ []) : s ≠ [] := by
  cases h with
  | nil => exact absurd rfl ht
  | plain => exact List.cons_ne_nil _ _
  | entity => exact List.cons_ne_nil _ _

/-- Writing characters as entities adds no white space at the ends. -/
theorem Encodes.trimmed (h : Encodes t s) (ht : Text.Trimmed t) : Text.Trimmed s := by
  have hamp : Text.isWhitespace '&' = false := by decide
  have hsemi : Text.isWhitespace ';' = false := by decide
  refine ⟨?_, ?_⟩
  · cases h with
    | nil => simp
    | plain => simpa using ht.1
    | entity => simpa using hamp
  · have hlast := ht.2
    clear ht
    have hkeep : ∀ {p s : List Char}, s ≠ [] → (p ++ s).getLast? = s.getLast? :=
      fun hs => List.getLast?_append_of_ne_nil _ hs
    induction h with
    | nil => simp
    | @plain c t s _ _ _ h ih =>
        by_cases ht : t = []
        · subst ht
          cases h
          exact hlast
        · have hs := h.ne_nil ht
          have ht' : (c :: t).getLast? = t.getLast? := @hkeep [c] _ ht
          have hs' : (c :: s).getLast? = s.getLast? := @hkeep [c] _ hs
          rw [ht'] at hlast
          rw [hs']
          exact ih hlast
    | @entity c name t s _ _ h ih =>
        by_cases ht : t = []
        · subst ht
          cases h
          have hlast' : ('&' :: (name ++ [';'])).getLast? = some ';' :=
            @hkeep ('&' :: name) _ (List.cons_ne_nil ';' [])
          rw [hlast']
          simpa using hsemi
        · have hs := h.ne_nil ht
          have ht' : (c :: t).getLast? = t.getLast? := @hkeep [c] _ ht
          have hs' : ('&' :: (name ++ ';' :: s)).getLast? = s.getLast? := by
            have hsplit : '&' :: (name ++ ';' :: s) = ('&' :: (name ++ [';'])) ++ s := by simp
            rw [hsplit, hkeep hs]
          rw [ht'] at hlast
          rw [hs']
          exact ih hlast

end Wftda
end Statskboo
