import Statskboo.Web.Cache

/-!
# What the response cache counts and what it finds

A cache starts empty and is stored to and cleared in any order.  This module follows it
through every such history: the bytes it counts, the pages it admits and the page it
finds under a key.

Main results:

- Theorem {lit}`set_of_admits` and {lit}`set_of_not_admits`: a page is stored when the
  pages with it in its place fit, and otherwise nothing changes.
- Theorem {lit}`get_after_iff`: the page under a key is the last one admitted there since
  the last clear.
- Theorem {lit}`cache_accounting`: both, with the count, after every history.
-/

namespace Statskboo
namespace Web
namespace Cache

open KeyedTable

/-! ## One operation -/

/-- What happens to a cache. -/
inductive Op where
  | set (key : String) (entry : CachedEntry)
  | clear
deriving DecidableEq, Repr

/-- The effect of an operation. -/
def apply (c : Cache) : Op → Cache
  | .set key entry => c.set key entry
  | .clear => c.clear

/-- The bytes of some pages. -/
def bodyBytes (entries : Table String CachedEntry) : Nat :=
  (entries.rows.map fun r => r.2.body.length).sum

/-- The pages with a new one in the place of the page under its key fit. -/
def Admits (c : Cache) (key : String) (entry : CachedEntry) : Prop :=
  bodyBytes (c.entries.upsert key entry) ≤ c.maxBytes

instance (c : Cache) (key : String) (entry : CachedEntry) : Decidable (c.Admits key entry) :=
  inferInstanceAs (Decidable (_ ≤ _))

variable {c : Cache} {key key' : String} {entry entry' : CachedEntry}

/-- A page that fits is stored. -/
theorem set_of_admits (h : c.Admits key entry) :
    (c.set key entry).entries = c.entries.upsert key entry := by
  have hnew : ¬c.maxBytes < c.usedBytes - c.oldSize key + entry.body.length := by
    rw [c.usedBytes_upsert]
    exact not_lt.mpr h
  unfold set
  dsimp only
  rw [dif_neg hnew]

/-- A page that does not fit changes nothing. -/
theorem set_of_not_admits (h : ¬c.Admits key entry) : c.set key entry = c := by
  have hnew : c.maxBytes < c.usedBytes - c.oldSize key + entry.body.length := by
    rw [c.usedBytes_upsert]
    exact not_le.mp h
  unfold set
  dsimp only
  rw [dif_pos hnew]

/-- After storing a page its key finds it if it fits, and the rest finds what it found. -/
theorem get_set_eq (c : Cache) (key key' : String) (entry : CachedEntry) :
    (c.set key entry).get key' =
      if key' = key ∧ c.Admits key entry then some entry else c.get key' := by
  by_cases hfits : c.Admits key entry
  · rw [get, set_of_admits hfits, Table.get?_upsert]
    simp [hfits, get]
  · rw [set_of_not_admits hfits, if_neg fun h => hfits h.2]

/-! ## A history of operations -/

/-- The cache after some operations from the empty one. -/
def after (maxBytes : Nat) (ops : List Op) : Cache :=
  ops.foldl apply (new maxBytes)

theorem after_append_singleton (maxBytes : Nat) (ops : List Op) (op : Op) :
    after maxBytes (ops ++ [op]) = (after maxBytes ops).apply op := by
  rw [after, List.foldl_append]
  rfl

theorem maxBytes_after (maxBytes : Nat) (ops : List Op) :
    (after maxBytes ops).maxBytes = maxBytes := by
  induction ops using List.reverseRecOn with
  | nil => rfl
  | append_singleton ops op ih =>
      rw [after_append_singleton]
      cases op with
      | set key entry => exact (maxBytes_set _ _ _).trans ih
      | clear => exact ih

/-- Nothing happens to a page under its key in an operation: the cache is not cleared and no
page is admitted under the key. -/
def Keeps (c : Cache) (key : String) (op : Op) : Prop :=
  op ≠ .clear ∧ ∀ entry, op = .set key entry → ¬c.Admits key entry

/-- The page was admitted under its key by an operation of the history, and every later
operation has kept it. -/
def LastAdmitted (maxBytes : Nat) (ops : List Op) (key : String) (entry : CachedEntry) : Prop :=
  ∃ i, ops[i]? = some (.set key entry) ∧ (after maxBytes (ops.take i)).Admits key entry ∧
    ∀ j op, i < j → ops[j]? = some op → (after maxBytes (ops.take j)).Keeps key op

/-- What the last operation of a history admits, or keeps. -/
theorem lastAdmitted_append_singleton {maxBytes : Nat} {ops : List Op} {op : Op} :
    LastAdmitted maxBytes (ops ++ [op]) key entry ↔
      op = .set key entry ∧ (after maxBytes ops).Admits key entry ∨
        LastAdmitted maxBytes ops key entry ∧ (after maxBytes ops).Keeps key op := by
  have hlast : (ops ++ [op])[ops.length]? = some op := List.getElem?_concat_length
  have htake : (ops ++ [op]).take ops.length = ops := List.take_left
  have hbefore : ∀ {k x}, ops[k]? = some x →
      (ops ++ [op])[k]? = some x ∧ (ops ++ [op]).take k = ops.take k := by
    intro k x hk
    have hlt := (List.getElem?_eq_some_iff.mp hk).1
    exact ⟨(List.getElem?_append_left hlt).trans hk, List.take_append_of_le_length hlt.le⟩
  have hcases : ∀ {k x}, (ops ++ [op])[k]? = some x →
      ops[k]? = some x ∨ k = ops.length ∧ x = op := by
    intro k x hk
    have hlt := (List.getElem?_eq_some_iff.mp hk).1
    rw [List.length_append, List.length_singleton] at hlt
    rcases Nat.lt_succ_iff_lt_or_eq.mp hlt with hlt | rfl
    · exact Or.inl ((List.getElem?_append_left hlt).symm.trans hk)
    · exact Or.inr ⟨rfl, Option.some.inj (hk.symm.trans hlast)⟩
  constructor
  · rintro ⟨i, hi, hadmits, hkeeps⟩
    rcases hcases hi with hi' | ⟨rfl, rfl⟩
    · right
      have hlt := (List.getElem?_eq_some_iff.mp hi').1
      rw [(hbefore hi').2] at hadmits
      refine ⟨⟨i, hi', hadmits, fun j op' hij hj => ?_⟩, ?_⟩
      · have hkeep := hkeeps j op' hij (hbefore hj).1
        rwa [(hbefore hj).2] at hkeep
      · have hkeep := hkeeps ops.length op hlt hlast
        rwa [htake] at hkeep
    · left
      rw [htake] at hadmits
      exact ⟨rfl, hadmits⟩
  · rintro (⟨rfl, hadmits⟩ | ⟨⟨i, hi, hadmits, hkeeps⟩, hkeep⟩)
    · refine ⟨ops.length, hlast, by rwa [htake], fun j op' hij hj => ?_⟩
      have hlt := (List.getElem?_eq_some_iff.mp hj).1
      rw [List.length_append, List.length_singleton] at hlt
      omega
    · refine ⟨i, (hbefore hi).1, by rwa [(hbefore hi).2], fun j op' hij hj => ?_⟩
      rcases hcases hj with hj' | ⟨rfl, rfl⟩
      · rw [(hbefore hj').2]
        exact hkeeps j op' hij hj'
      · rwa [htake]

/-- The page under a key is the last one admitted there since the last clear. -/
theorem get_after_iff {maxBytes : Nat} {ops : List Op} :
    (after maxBytes ops).get key = some entry ↔ LastAdmitted maxBytes ops key entry := by
  induction ops using List.reverseRecOn with
  | nil =>
      refine ⟨fun h => ?_, fun ⟨i, hi, _⟩ => ?_⟩
      · cases h
      · rw [List.getElem?_nil] at hi
        cases hi
  | append_singleton ops op ih =>
      rw [after_append_singleton, lastAdmitted_append_singleton, ← ih]
      cases op with
      | clear => simp [apply, Keeps]
      | set key' entry' =>
          rw [apply, get_set_eq]
          by_cases hset : key = key' ∧ (after maxBytes ops).Admits key' entry'
          · obtain ⟨rfl, hadmits⟩ := hset
            rw [if_pos ⟨rfl, hadmits⟩]
            have hnot : ¬(after maxBytes ops).Keeps key (.set key entry') :=
              fun hkeep => hkeep.2 entry' rfl hadmits
            constructor
            · intro heq
              cases heq
              exact Or.inl ⟨rfl, hadmits⟩
            · rintro (⟨heq, -⟩ | ⟨-, hkeep⟩)
              · cases heq
                rfl
              · exact absurd hkeep hnot
          · rw [if_neg hset]
            have hkeep : (after maxBytes ops).Keeps key (.set key' entry') := by
              refine ⟨Op.noConfusion, fun e heq hadmits => hset ?_⟩
              cases heq
              exact ⟨rfl, hadmits⟩
            constructor
            · exact fun hget => Or.inr ⟨hget, hkeep⟩
            · rintro (⟨heq, hadmits⟩ | ⟨hget, -⟩)
              · exact absurd hadmits (hkeep.2 entry heq)
              · exact hget

/-- After every history the count is the sum over the stored pages and within the limit, the
next page is stored exactly when the pages with it in its place fit and changes nothing
otherwise, and a key finds the last page admitted there since the last clear. -/
theorem cache_accounting (maxBytes : Nat) (ops : List Op) :
    let c := after maxBytes ops
    c.maxBytes = maxBytes ∧
    c.usedBytes = (c.entries.rows.map fun r => r.2.body.length).sum ∧
    c.usedBytes ≤ maxBytes ∧
    (∀ key entry, c.Admits key entry →
      (c.set key entry).entries = c.entries.upsert key entry) ∧
    (∀ key entry, ¬c.Admits key entry → c.set key entry = c) ∧
    (∀ key entry, c.get key = some entry ↔ LastAdmitted maxBytes ops key entry) := by
  have hmax := maxBytes_after maxBytes ops
  refine ⟨hmax, Cache.used _, (Cache.fits _).trans_eq hmax, ?_, ?_, ?_⟩
  · exact fun key entry hadmits => set_of_admits hadmits
  · exact fun key entry hnot => set_of_not_admits hnot
  · exact fun key entry => get_after_iff

end Cache
end Web
end Statskboo
