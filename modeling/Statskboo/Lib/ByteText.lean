import Mathlib.Algebra.GroupWithZero.Nat
import Mathlib.Data.List.Infix
import Mathlib.Tactic.Common

/-!
# Text by byte offsets

Text is a sequence of characters, but positions in it count bytes.  A slice is none when
one of its ends lies outside the text or inside a character; a search answers with the
offset at which a marker occurs first.

Main results:

- Theorems {lit}`sliceTo_append` and {lit}`sliceFrom_append`: a slice at the end of a prefix
  exists.
- Theorem {lit}`find_eq_some`: a search splits the text at its answer.
- Theorem {lit}`find_append`: a marker without borders is found where it is written first.
- Theorem {lit}`not_infix_append_cons`: a marker does not reach across a character that it
  does not have.
-/

namespace ByteText

/-- The number of bytes of a text. -/
def byteLen (s : List Char) : Nat :=
  (s.map Char.utf8Size).sum

/-- The bytes of a text. -/
def bytes (s : List Char) : List UInt8 :=
  s.flatMap String.utf8EncodeChar

/-- The text before a byte offset. -/
def sliceTo : Nat → List Char → Option (List Char)
  | 0, _ => some []
  | _ + 1, [] => none
  | n + 1, c :: s =>
      if c.utf8Size ≤ n + 1 then (sliceTo (n + 1 - c.utf8Size) s).map (c :: ·) else none

/-- The text from a byte offset on. -/
def sliceFrom : Nat → List Char → Option (List Char)
  | 0, s => some s
  | _ + 1, [] => none
  | n + 1, c :: s => if c.utf8Size ≤ n + 1 then sliceFrom (n + 1 - c.utf8Size) s else none

/-- The text between two byte offsets. -/
def slice (start stop : Nat) (s : List Char) : Option (List Char) :=
  if start ≤ stop then (sliceTo stop s).bind (sliceFrom start) else none

/-- The byte offset at which a marker occurs first. -/
def find (marker : List Char) : List Char → Option Nat
  | [] => if marker.isEmpty then some 0 else none
  | c :: s =>
      if marker.isPrefixOf (c :: s) then some 0 else (find marker s).map (· + c.utf8Size)

variable {marker s pre post : List Char} {c : Char}

/-! ## Slices -/

@[simp]
theorem byteLen_nil : byteLen [] = 0 :=
  rfl

@[simp]
theorem byteLen_cons (c : Char) (s : List Char) : byteLen (c :: s) = c.utf8Size + byteLen s := by
  simp [byteLen]

@[simp]
theorem byteLen_append (s t : List Char) : byteLen (s ++ t) = byteLen s + byteLen t := by
  simp [byteLen]

/-- Text of characters of one byte has as many bytes as characters. -/
theorem byteLen_eq_length (h : ∀ c ∈ s, c.utf8Size = 1) : byteLen s = s.length := by
  induction s with
  | nil => rfl
  | cons c s ih =>
      rw [byteLen_cons, ih fun d hd => h d (List.mem_cons_of_mem c hd), h c List.mem_cons_self,
        List.length_cons, Nat.add_comm]

/-- The bytes of an ASCII text are the codes of its characters. -/
theorem bytes_of_ascii (h : ∀ c ∈ s, c.toNat < 128) : bytes s = s.map fun c => c.val.toUInt8 := by
  induction s with
  | nil => rfl
  | cons c s ih =>
      obtain ⟨hc, hs⟩ := List.forall_mem_cons.mp h
      have hle : c.val ≤ 127 := UInt32.le_iff_toNat_le.mpr (Nat.le_of_lt_succ hc)
      rw [bytes, List.flatMap_cons,
        String.utf8EncodeChar_eq_singleton (Char.utf8Size_eq_one_iff.mpr hle), List.map_cons, ← ih hs]
      rfl

/-- The bytes of ASCII characters are ordered like the characters. -/
theorem toUInt8_lt {c d : Char} (hd : d.toNat < 128) (h : c < d) :
    c.val.toUInt8 < d.val.toUInt8 := by
  have hlt : c.toNat < d.toNat := h
  rw [UInt8.lt_iff_toNat_lt, UInt32.toNat_toUInt8, UInt32.toNat_toUInt8]
  change c.toNat % 2 ^ 8 < d.toNat % 2 ^ 8
  rw [Nat.mod_eq_of_lt (by omega), Nat.mod_eq_of_lt (by omega)]
  exact hlt

/-- A slice that reaches beyond a prefix goes on behind it. -/
theorem sliceTo_byteLen_add (pre post : List Char) (n : Nat) :
    sliceTo (byteLen pre + n) (pre ++ post) = (sliceTo n post).map (pre ++ ·) := by
  induction pre with
  | nil => simp
  | cons c pre ih =>
      have hpos := c.utf8Size_pos
      obtain ⟨m, hm⟩ : ∃ m, c.utf8Size + byteLen pre + n = m + 1 :=
        ⟨_, (Nat.succ_pred (by omega)).symm⟩
      have hrest : m + 1 - c.utf8Size = byteLen pre + n := by omega
      rw [byteLen_cons, hm, List.cons_append, sliceTo, if_pos (by omega), hrest, ih,
        Option.map_map]
      rfl

/-- A prefix is the slice up to its length. -/
theorem sliceTo_append (pre post : List Char) : sliceTo (byteLen pre) (pre ++ post) = some pre := by
  have h := sliceTo_byteLen_add pre post 0
  simpa [sliceTo] using h

/-- A slice up to an offset exists exactly when a prefix ends there. -/
theorem sliceTo_eq_some_iff {n : Nat} :
    sliceTo n s = some pre ↔ ∃ post, s = pre ++ post ∧ byteLen pre = n := by
  constructor
  · intro h
    induction s generalizing n pre with
    | nil =>
        cases n with
        | zero =>
            cases h
            exact ⟨[], rfl, rfl⟩
        | succ n => cases h
    | cons c s ih =>
        cases n with
        | zero =>
            cases h
            exact ⟨c :: s, rfl, rfl⟩
        | succ n =>
            rw [sliceTo] at h
            split_ifs at h with hc
            obtain ⟨rest, hrest, rfl⟩ := Option.map_eq_some_iff.mp h
            obtain ⟨post, rfl, hlength⟩ := ih hrest
            exact ⟨post, rfl, by rw [byteLen_cons]; omega⟩
  · rintro ⟨post, rfl, rfl⟩
    exact sliceTo_append pre post

/-- What follows a prefix is the slice from its length on. -/
theorem sliceFrom_append (pre post : List Char) :
    sliceFrom (byteLen pre) (pre ++ post) = some post := by
  induction pre with
  | nil => simp [sliceFrom]
  | cons c pre ih =>
      have hpos := c.utf8Size_pos
      obtain ⟨n, hn⟩ : ∃ n, c.utf8Size + byteLen pre = n + 1 := ⟨_, (Nat.succ_pred (by omega)).symm⟩
      have hrest : n + 1 - c.utf8Size = byteLen pre := by omega
      rw [byteLen_cons, hn, List.cons_append, sliceFrom, if_pos (by omega), hrest, ih]

/-- What stands between two prefixes is the slice between their lengths. -/
theorem slice_append (pre mid post : List Char) :
    slice (byteLen pre) (byteLen pre + byteLen mid) (pre ++ (mid ++ post)) = some mid := by
  have hto := sliceTo_append (pre ++ mid) post
  rw [byteLen_append, List.append_assoc] at hto
  rw [slice, if_pos (Nat.le_add_right _ _), hto, Option.bind_some, sliceFrom_append]

/-! ## Searches -/

/-- A search splits the text at its answer. -/
theorem find_eq_some {n : Nat} (h : find marker s = some n) :
    ∃ pre post, s = pre ++ (marker ++ post) ∧ n = byteLen pre := by
  induction s generalizing n with
  | nil =>
      rw [find] at h
      split_ifs at h with hempty
      · cases h
        exact ⟨[], [], by simpa using hempty, rfl⟩
  | cons c s ih =>
      rw [find] at h
      split_ifs at h with hprefix
      · cases h
        obtain ⟨post, hpost⟩ := List.isPrefixOf_iff_prefix.mp hprefix
        exact ⟨[], post, hpost.symm, rfl⟩
      · obtain ⟨m, hm, rfl⟩ := Option.map_eq_some_iff.mp h
        obtain ⟨pre, post, rfl, rfl⟩ := ih hm
        exact ⟨c :: pre, post, rfl, by rw [byteLen_cons, Nat.add_comm]⟩

/-- A search fails exactly when the marker does not occur. -/
theorem find_eq_none : find marker s = none ↔ ¬marker <:+: s := by
  induction s with
  | nil => simp [find]
  | cons c s ih =>
      rw [find, List.infix_cons_iff]
      split_ifs with hprefix
      · simp [List.isPrefixOf_iff_prefix.mp hprefix]
      · rw [Option.map_eq_none_iff, ih]
        simp [mt List.isPrefixOf_iff_prefix.mpr hprefix]

/-- No proper end of a marker is a beginning of it. -/
def BorderFree (marker : List Char) : Prop :=
  ∀ k, 0 < k → k < marker.length → ¬marker.drop k <+: marker

instance (marker : List Char) : Decidable (BorderFree marker) :=
  decidable_of_iff (∀ k, k < marker.length → 0 < k → ¬marker.drop k <+: marker)
    ⟨fun h k hpos hlt => h k hlt hpos, fun h k hlt hpos => h k hpos hlt⟩

/-- A marker without borders does not begin before the place where it is written. -/
theorem BorderFree.not_prefix (h : BorderFree marker) (hpre : pre ≠ [])
    (hmarker : ¬marker <:+: pre) (post : List Char) : ¬marker <+: pre ++ (marker ++ post) := by
  intro hprefix
  by_cases hlength : marker.length ≤ pre.length
  · exact hmarker
      (List.prefix_of_prefix_length_le hprefix (List.prefix_append pre _) hlength).isInfix
  · -- the marker would reach from inside the text before it into itself
    have hpos : 0 < pre.length := List.length_pos_of_ne_nil hpre
    refine h pre.length hpos (not_le.mp hlength) ?_
    obtain ⟨rest, hrest⟩ := hprefix
    have hdrop := congrArg (List.drop pre.length) hrest
    rw [List.drop_append_of_le_length (by omega), List.drop_left] at hdrop
    have htail : marker.drop pre.length <+: marker ++ post := ⟨rest, hdrop⟩
    exact List.prefix_of_prefix_length_le htail (List.prefix_append marker post)
      (by rw [List.length_drop]; omega)

/-- A marker without borders is found where it is written first. -/
theorem find_append (h : BorderFree marker) (hne : marker ≠ []) (hpre : ¬marker <:+: pre)
    (post : List Char) : find marker (pre ++ (marker ++ post)) = some (byteLen pre) := by
  induction pre with
  | nil =>
      obtain ⟨c, m, rfl⟩ := List.exists_cons_of_ne_nil hne
      have hprefix : (c :: m).isPrefixOf (c :: (m ++ post)) = true :=
        List.isPrefixOf_iff_prefix.mpr (List.prefix_append (c :: m) post)
      rw [List.nil_append, List.cons_append, find, if_pos hprefix]
      rfl
  | cons c pre ih =>
      have hnot := h.not_prefix (List.cons_ne_nil c pre) hpre post
      rw [List.cons_append] at hnot ⊢
      rw [find, if_neg fun hp => hnot (List.isPrefixOf_iff_prefix.mp hp),
        ih fun hp => hpre (List.infix_cons hp), byteLen_cons, Option.map_some, Nat.add_comm]

/-- A character is found where it stands first. -/
theorem find_singleton (hpre : c ∉ pre) (post : List Char) :
    find [c] (pre ++ (c :: post)) = some (byteLen pre) := by
  have hborder : BorderFree [c] := by
    intro k hpos hlt
    rw [List.length_singleton] at hlt
    omega
  exact find_append hborder (List.cons_ne_nil c []) (fun h => hpre (h.subset List.mem_cons_self))
    post

theorem find_singleton_eq_none : find [c] s = none ↔ c ∉ s := by
  rw [find_eq_none, not_iff_not]
  constructor
  · exact fun h => h.subset List.mem_cons_self
  · intro h
    obtain ⟨pre, post, rfl⟩ := List.append_of_mem h
    exact ⟨pre, post, by simp⟩

/-! ## Where a marker cannot occur -/

/-- A marker does not reach across a character that it does not have. -/
theorem not_infix_append_cons (hc : c ∉ marker) (hne : marker ≠ []) (hpre : ¬marker <:+: pre)
    (hpost : ¬marker <:+: post) : ¬marker <:+: pre ++ c :: post := by
  rintro ⟨before, after, heq⟩
  rw [List.append_assoc] at heq
  rcases List.append_eq_append_iff.mp heq with ⟨mid, rfl, hmid⟩ | ⟨mid, rfl, hmid⟩
  · -- the marker starts in the text before the character
    rcases List.append_eq_append_iff.mp hmid with ⟨mid', rfl, -⟩ | ⟨mid', hmarker, hrest⟩
    · exact hpre ⟨before, mid', by simp⟩
    · cases mid' with
      | nil => exact hpre ⟨before, [], by simp [hmarker]⟩
      | cons d mid' =>
          obtain ⟨rfl, -⟩ := List.cons.inj hrest
          exact hc (by simp [hmarker])
  · -- it starts at the character or behind it
    cases mid with
    | nil =>
        obtain ⟨d, m, rfl⟩ := List.exists_cons_of_ne_nil hne
        rw [List.nil_append, List.cons_append] at hmid
        obtain ⟨rfl, -⟩ := List.cons.inj hmid
        exact hc List.mem_cons_self
    | cons d mid =>
        rw [List.cons_append] at hmid
        obtain ⟨rfl, hpost'⟩ := List.cons.inj hmid
        exact hpost ⟨mid, after, by rw [hpost']; simp⟩

end ByteText
