import Mathlib.Algebra.GroupWithZero.Nat
import Mathlib.Data.List.Induction
import Mathlib.Data.List.Pairwise
import Mathlib.Data.List.Sort
import Mathlib.Data.Prod.Lex
import Mathlib.Tactic.Common

/-!
# Keyed tables

A database table with a primary key, kept as the list of its rows in strictly
ascending key order.  The order is part of the type, so two rows never share a
key, and reading the rows is the query `SELECT ... ORDER BY key`.

Main results:

- Theorem {lit}`Table.mem_rows_iff`: the rows are exactly the answers of
  {lit}`Table.get?`.
- Theorems {lit}`Table.get?_upsert`, {lit}`Table.get?_filter` and
  {lit}`Table.get?_mapVals`: what each write leaves under each key.
- Theorem {lit}`Table.ext_get?`: a table is determined by what stands under its keys.
- Theorem {lit}`Table.getD_get?_index`: grouping a list by a key keeps, under each
  key, exactly the elements with that key.
-/

namespace KeyedTable

universe u v

/-- Rows in strictly ascending key order: the key is a primary key. -/
structure Table (κ : Type u) (ν : Type v) [LinearOrder κ] where
  rows : List (κ × ν)
  ascending : rows.Pairwise fun r s => r.1 < s.1

namespace Table

variable {κ : Type u} {ν : Type v} [LinearOrder κ]

/-- The table without rows. -/
def empty : Table κ ν where
  rows := []
  ascending := List.Pairwise.nil

/-- The value stored under a key. -/
def get? (t : Table κ ν) (k : κ) : Option ν :=
  (t.rows.find? fun r => decide (r.1 = k)).map Prod.snd

/-- Whether some row has the key. -/
def has (t : Table κ ν) (k : κ) : Bool :=
  (t.get? k).isSome

/-- The keys in ascending order. -/
def keys (t : Table κ ν) : List κ :=
  t.rows.map Prod.fst

@[simp]
theorem get?_empty (k : κ) : (empty : Table κ ν).get? k = none :=
  rfl

/-- Two rows of one table with the same key are the same row. -/
theorem eq_of_mem_rows {t : Table κ ν} {k : κ} {v w : ν}
    (hv : (k, v) ∈ t.rows) (hw : (k, w) ∈ t.rows) : v = w := by
  by_contra hne
  have hpair : (k, v) ≠ (k, w) := fun h => hne (congrArg Prod.snd h)
  have hkeys : t.rows.Pairwise fun r s => r.1 ≠ s.1 := t.ascending.imp fun h => h.ne
  have : Std.Symm fun r s : κ × ν => r.1 ≠ s.1 := ⟨fun _ _ h => h.symm⟩
  exact hkeys.forall hv hw hpair rfl

/-- The rows are exactly the answers of {name}`get?`. -/
theorem mem_rows_iff {t : Table κ ν} {k : κ} {v : ν} :
    (k, v) ∈ t.rows ↔ t.get? k = some v := by
  constructor
  · intro hmem
    cases hfind : t.rows.find? fun r => decide (r.1 = k) with
    | none =>
        have hnone := List.find?_eq_none.mp hfind (k, v) hmem
        simp at hnone
    | some r =>
        have hkey : r.1 = k := by simpa using List.find?_some hfind
        have hr : (k, r.2) ∈ t.rows := by
          have := List.mem_of_find?_eq_some hfind
          rwa [← hkey]
        simp [get?, hfind, eq_of_mem_rows hr hmem]
  · intro hget
    obtain ⟨r, hfind, hsnd⟩ := Option.map_eq_some_iff.mp hget
    have hkey : r.1 = k := by simpa using List.find?_some hfind
    have hmem := List.mem_of_find?_eq_some hfind
    rwa [← hkey, ← hsnd]

/-- A key is present exactly when one of the rows carries it. -/
theorem mem_keys_iff {t : Table κ ν} {k : κ} : k ∈ t.keys ↔ ∃ v, t.get? k = some v := by
  simp only [keys, List.mem_map, Prod.exists, exists_and_right, exists_eq_right, mem_rows_iff]

theorem has_iff {t : Table κ ν} {k : κ} : t.has k = true ↔ ∃ v, t.get? k = some v := by
  simp [has, Option.isSome_iff_exists]

theorem has_of_mem_rows {t : Table κ ν} {r : κ × ν} (h : r ∈ t.rows) : t.has r.1 = true :=
  has_iff.mpr ⟨r.2, mem_rows_iff.mp h⟩

/-- The keys that pass a test, listed in ascending order. -/
theorem keys_filter_eq {t : Table κ ν} {p : κ → Bool} {l : List κ} (hl : l.Pairwise (· < ·))
    (h : ∀ k, k ∈ l ↔ t.has k = true ∧ p k = true) : t.keys.filter p = l := by
  have hkeys : t.keys.Pairwise (· < ·) := List.pairwise_map.mpr t.ascending
  refine (hkeys.filter p).eq_of_mem_iff hl fun k => ?_
  rw [h k, List.mem_filter, mem_keys_iff, has_iff]

/-! ## Insert or replace -/

/-- Put a row at its place in an ascending list, replacing the row with its key. -/
def insertRow (k : κ) (v : ν) : List (κ × ν) → List (κ × ν)
  | [] => [(k, v)]
  | r :: rs =>
      if k < r.1 then (k, v) :: r :: rs
      else if k = r.1 then (k, v) :: rs
      else r :: insertRow k v rs

theorem mem_insertRow {k : κ} {v : ν} {rs : List (κ × ν)} {r : κ × ν}
    (hrs : rs.Pairwise fun r s => r.1 < s.1) :
    r ∈ insertRow k v rs ↔ r = (k, v) ∨ (r ∈ rs ∧ r.1 ≠ k) := by
  induction rs with
  | nil => simp [insertRow]
  | cons s rs ih =>
      have hlt : ∀ r ∈ rs, s.1 < r.1 := (List.pairwise_cons.mp hrs).1
      unfold insertRow
      split_ifs with h₁ h₂
      · have hne : ∀ r ∈ s :: rs, r.1 ≠ k := by
          intro r hr
          rcases List.mem_cons.mp hr with rfl | hr
          · exact h₁.ne'
          · exact (h₁.trans (hlt r hr)).ne'
        simp only [List.mem_cons (a := r) (b := (k, v))]
        exact or_congr_right ⟨fun hr => ⟨hr, hne r hr⟩, And.left⟩
      · have hne : ∀ r ∈ rs, r.1 ≠ k := fun r hr => h₂ ▸ (hlt r hr).ne'
        simp only [List.mem_cons]
        constructor
        · rintro (rfl | hr)
          · exact Or.inl rfl
          · exact Or.inr ⟨Or.inr hr, hne r hr⟩
        · rintro (rfl | ⟨rfl | hr, hk⟩)
          · exact Or.inl rfl
          · exact absurd h₂.symm hk
          · exact Or.inr hr
      · have hsk : s.1 ≠ k := fun h => h₂ h.symm
        simp only [List.mem_cons, ih (List.pairwise_cons.mp hrs).2]
        constructor
        · rintro (rfl | rfl | ⟨hr, hk⟩)
          · exact Or.inr ⟨Or.inl rfl, hsk⟩
          · exact Or.inl rfl
          · exact Or.inr ⟨Or.inr hr, hk⟩
        · rintro (rfl | ⟨rfl | hr, hk⟩)
          · exact Or.inr (Or.inl rfl)
          · exact Or.inl rfl
          · exact Or.inr (Or.inr ⟨hr, hk⟩)

theorem pairwise_insertRow {k : κ} {v : ν} {rs : List (κ × ν)}
    (hrs : rs.Pairwise fun r s => r.1 < s.1) :
    (insertRow k v rs).Pairwise fun r s => r.1 < s.1 := by
  induction rs with
  | nil => simp [insertRow]
  | cons s rs ih =>
      obtain ⟨hlt, htail⟩ := List.pairwise_cons.mp hrs
      unfold insertRow
      split_ifs with h₁ h₂
      · refine List.pairwise_cons.mpr ⟨?_, hrs⟩
        intro r hr
        rcases List.mem_cons.mp hr with rfl | hr
        · exact h₁
        · exact h₁.trans (hlt r hr)
      · exact List.pairwise_cons.mpr ⟨fun r hr => h₂ ▸ hlt r hr, htail⟩
      · refine List.pairwise_cons.mpr ⟨?_, ih htail⟩
        intro r hr
        rcases (mem_insertRow htail).mp hr with rfl | ⟨hr, -⟩
        · exact lt_of_le_of_ne (le_of_not_gt h₁) (fun h => h₂ h.symm)
        · exact hlt r hr

/-- {lit}`INSERT ... ON CONFLICT (key) DO UPDATE`: insert or replace one row. -/
def upsert (t : Table κ ν) (k : κ) (v : ν) : Table κ ν where
  rows := insertRow k v t.rows
  ascending := pairwise_insertRow t.ascending

/-- After an upsert its key holds the new value and the others what they held. -/
theorem get?_upsert (t : Table κ ν) (k k' : κ) (v : ν) :
    (t.upsert k v).get? k' = if k' = k then some v else t.get? k' := by
  apply Option.ext
  intro w
  rw [← mem_rows_iff]
  simp only [upsert, mem_insertRow t.ascending, Prod.mk.injEq, mem_rows_iff]
  split_ifs with h
  · simp [h, eq_comm]
  · simp [h]

@[simp]
theorem get?_upsert_self (t : Table κ ν) (k : κ) (v : ν) : (t.upsert k v).get? k = some v := by
  simp [get?_upsert]

theorem get?_upsert_of_ne (t : Table κ ν) {k k' : κ} (v : ν) (h : k' ≠ k) :
    (t.upsert k v).get? k' = t.get? k' := by
  simp [get?_upsert, h]

/-- A table is determined by what stands under its keys. -/
theorem ext_get? {t t' : Table κ ν} (h : ∀ k, t.get? k = t'.get? k) : t = t' := by
  have hnodup : ∀ t : Table κ ν, t.rows.Nodup := fun t =>
    t.ascending.imp fun hlt heq => (heq ▸ hlt).ne rfl
  have hmem : ∀ r, r ∈ t.rows ↔ r ∈ t'.rows := by
    intro r
    rw [← Prod.mk.eta (p := r), mem_rows_iff, mem_rows_iff, h]
  have hperm : t.rows.Perm t'.rows :=
    (List.perm_ext_iff_of_nodup (hnodup t) (hnodup t')).mpr hmem
  have hrows : t.rows = t'.rows := by
    apply hperm.eq_of_pairwise _ t.ascending t'.ascending
    intro r r' _ _ hlt hgt
    exact absurd hgt hlt.not_gt
  cases t
  cases t'
  cases hrows
  rfl

/-- Upserts under different keys can be exchanged. -/
theorem upsert_comm (t : Table κ ν) {k k' : κ} (hne : k ≠ k') (v v' : ν) :
    (t.upsert k v).upsert k' v' = (t.upsert k' v').upsert k v := by
  apply ext_get?
  intro key
  simp only [get?_upsert]
  split_ifs with h h'
  · exact absurd (h'.symm.trans h) hne
  · rfl
  · rfl
  · rfl

theorem has_upsert (t : Table κ ν) (k k' : κ) (v : ν) :
    (t.upsert k v).has k' = (decide (k' = k) || t.has k') := by
  rw [has, get?_upsert]
  split_ifs with h <;> simp [h, has]

/-- What a loop over some positions leaves under the key of one of them, when distinct
positions have distinct keys. -/
theorem get?_foldl_upsert {α : Type v} [DecidableEq α] {key : α → κ}
    (hkey : Function.Injective key) (value : α → Option ν) (l : List α) (a : α) :
    (l.foldl (fun t a => (value a).elim t (t.upsert (key a))) (empty : Table κ ν)).get?
        (key a) = if a ∈ l then value a else none := by
  induction l using List.reverseRecOn with
  | nil => exact get?_empty (key a)
  | append_singleton l b ih =>
      rw [List.foldl_append, List.foldl_cons, List.foldl_nil]
      by_cases hab : a = b
      · rw [if_pos (by simp [hab])]
        cases hvalue : value b with
        | none =>
            rw [← hab] at hvalue
            rw [Option.elim_none, ih, hvalue, ite_self]
        | some v =>
            rw [← hab] at hvalue ⊢
            rw [hvalue, Option.elim_some, get?_upsert_self]
      · have hmem : a ∈ l ++ [b] ↔ a ∈ l := by simp [hab]
        simp only [hmem]
        rw [← ih]
        cases value b with
        | none => rfl
        | some v => exact get?_upsert_of_ne _ v fun h => hab (hkey h)

/-- What a loop over some positions leaves under a key stands at a position with that key. -/
theorem exists_of_get?_foldl_upsert {α : Type v} {key : α → κ} {value : α → Option ν} {l : List α}
    {k : κ} {w : ν}
    (h : (l.foldl (fun t a => (value a).elim t (t.upsert (key a))) (empty : Table κ ν)).get? k =
      some w) : ∃ a ∈ l, key a = k ∧ value a = some w := by
  induction l using List.reverseRecOn with
  | nil => exact absurd h (by simp [get?_empty])
  | append_singleton l b ih =>
      rw [List.foldl_append, List.foldl_cons, List.foldl_nil] at h
      cases hvalue : value b with
      | none =>
          rw [hvalue, Option.elim_none] at h
          obtain ⟨a, ha, hak⟩ := ih h
          exact ⟨a, List.mem_append_left _ ha, hak⟩
      | some v =>
          rw [hvalue, Option.elim_some, get?_upsert] at h
          split_ifs at h with hkey
          · exact ⟨b, by simp, hkey.symm, hvalue.trans h⟩
          · obtain ⟨a, ha, hak⟩ := ih h
            exact ⟨a, List.mem_append_left _ ha, hak⟩

/-- Upsert rows one after another. -/
def upsertAll (t : Table κ ν) (rows : List (κ × ν)) : Table κ ν :=
  rows.foldl (fun t r => t.upsert r.1 r.2) t

/-- After some upserts a key holds the last value that they give it. -/
theorem get?_upsertAll (t : Table κ ν) (rows : List (κ × ν)) (k : κ) :
    (t.upsertAll rows).get? k =
      ((rows.reverse.find? fun r => decide (r.1 = k)).map Prod.snd).or (t.get? k) := by
  unfold upsertAll
  induction rows using List.reverseRecOn with
  | nil => simp
  | append_singleton rows r ih =>
      rw [List.foldl_append, List.foldl_cons, List.foldl_nil, get?_upsert, ih,
        List.reverse_append, List.reverse_singleton, List.singleton_append, List.find?_cons]
      by_cases hk : k = r.1
      · simp [hk]
      · simp [hk, Ne.symm hk]

/-- Upserts that give a key no other value leave it that value when it has it, or is given
it. -/
theorem get?_upsertAll_of_forall {t : Table κ ν} {rows : List (κ × ν)} {k : κ} {v : ν}
    (h : ∀ r ∈ rows, r.1 = k → r.2 = v) (hv : t.get? k = some v ∨ ∃ r ∈ rows, r.1 = k) :
    (t.upsertAll rows).get? k = some v := by
  rw [get?_upsertAll]
  cases hfind : rows.reverse.find? fun r => decide (r.1 = k) with
  | some r =>
      have hmem : r ∈ rows := List.mem_reverse.mp (List.mem_of_find?_eq_some hfind)
      have hkey : r.1 = k := by simpa using List.find?_some hfind
      rw [Option.map_some, Option.some_or, h r hmem hkey]
  | none =>
      rcases hv with hold | ⟨r, hr, hk⟩
      · rw [Option.map_none, Option.none_or, hold]
      · have hne := List.find?_eq_none.mp hfind r (List.mem_reverse.mpr hr)
        exact absurd (decide_eq_true hk) hne

/-- Upserts of other keys leave a key alone. -/
theorem get?_upsertAll_of_ne {t : Table κ ν} {rows : List (κ × ν)} {k : κ}
    (h : ∀ r ∈ rows, r.1 ≠ k) : (t.upsertAll rows).get? k = t.get? k := by
  have hnone : (rows.reverse.find? fun r => decide (r.1 = k)) = none := by
    rw [List.find?_eq_none]
    intro r hr hk
    exact h r (List.mem_reverse.mp hr) (of_decide_eq_true hk)
  rw [get?_upsertAll, hnone, Option.map_none, Option.none_or]

/-- What an upsert adds to a sum over the rows, the replaced row taken out. -/
theorem sum_map_upsert (t : Table κ ν) (k : κ) (v : ν) (g : ν → Nat) :
    ((t.upsert k v).rows.map fun r => g r.2).sum + ((t.get? k).map g).getD 0 =
      (t.rows.map fun r => g r.2).sum + g v := by
  obtain ⟨rs, hrs⟩ := t
  induction rs with
  | nil => simp [upsert, insertRow, get?]
  | cons r rs ih =>
      obtain ⟨hlt, htail⟩ := List.pairwise_cons.mp hrs
      have ih := ih htail
      simp only [upsert, get?] at ih ⊢
      unfold insertRow
      split_ifs with h₁ h₂
      · have hfind : (r :: rs).find? (fun r => decide (r.1 = k)) = none := by
          refine List.find?_eq_none.mpr fun s hs => ?_
          rcases List.mem_cons.mp hs with rfl | hs
          · simpa using h₁.ne'
          · simpa using (h₁.trans (hlt s hs)).ne'
        rw [hfind]
        simp [Nat.add_comm]
      · subst h₂
        simp [Nat.add_comm, Nat.add_left_comm]
      · have hne : r.1 ≠ k := Ne.symm h₂
        simp only [List.map_cons, List.sum_cons, List.find?_cons, hne, decide_false]
        omega

/-! ## Deleting and updating rows -/

/-- {lit}`DELETE WHERE`: keep the rows that satisfy a test. -/
def filter (t : Table κ ν) (p : κ → ν → Bool) : Table κ ν where
  rows := t.rows.filter fun r => p r.1 r.2
  ascending := t.ascending.filter _

/-- {lit}`UPDATE`: rewrite the value of every row. -/
def mapVals (t : Table κ ν) (f : κ → ν → ν) : Table κ ν where
  rows := t.rows.map fun r => (r.1, f r.1 r.2)
  ascending := by
    rw [List.pairwise_map]
    exact t.ascending

/-- {lit}`DELETE WHERE key = k`. -/
def erase (t : Table κ ν) (k : κ) : Table κ ν :=
  t.filter fun k' _ => decide (k' ≠ k)

/-- {lit}`UPDATE ... WHERE key = k`. -/
def modify (t : Table κ ν) (k : κ) (f : ν → ν) : Table κ ν :=
  t.mapVals fun k' v => if k' = k then f v else v

@[simp]
theorem get?_filter (t : Table κ ν) (p : κ → ν → Bool) (k : κ) :
    (t.filter p).get? k = (t.get? k).filter (p k) := by
  apply Option.ext
  intro w
  rw [← mem_rows_iff, Option.filter_eq_some_iff, ← mem_rows_iff]
  simp [filter]

/-- Tests that agree on the rows of a table keep the same rows. -/
theorem filter_congr {t : Table κ ν} {p q : κ → ν → Bool}
    (h : ∀ r ∈ t.rows, p r.1 r.2 = q r.1 r.2) : t.filter p = t.filter q := by
  unfold filter
  simp only [List.filter_congr h]

/-- A test that all rows pass keeps the table. -/
theorem filter_eq_self {t : Table κ ν} {p : κ → ν → Bool} (h : ∀ r ∈ t.rows, p r.1 r.2 = true) :
    t.filter p = t := by
  unfold filter
  simp only [List.filter_eq_self.mpr h]

@[simp]
theorem get?_mapVals (t : Table κ ν) (f : κ → ν → ν) (k : κ) :
    (t.mapVals f).get? k = (t.get? k).map (f k) := by
  apply Option.ext
  intro w
  rw [← mem_rows_iff, Option.map_eq_some_iff]
  simp only [← mem_rows_iff, mapVals, List.mem_map, Prod.mk.injEq, Prod.exists]
  constructor
  · rintro ⟨k', v, hmem, rfl, rfl⟩
    exact ⟨v, hmem, rfl⟩
  · rintro ⟨v, hmem, rfl⟩
    exact ⟨k, v, hmem, rfl, rfl⟩

theorem get?_erase (t : Table κ ν) (k k' : κ) :
    (t.erase k).get? k' = if k' = k then none else t.get? k' := by
  rw [erase, get?_filter]
  split_ifs with h
  · cases t.get? k' <;> simp [h]
  · cases t.get? k' <;> simp [h]

theorem get?_modify (t : Table κ ν) (k k' : κ) (f : ν → ν) :
    (t.modify k f).get? k' = if k' = k then (t.get? k').map f else t.get? k' := by
  rw [modify, get?_mapVals]
  split_ifs with h <;> simp

/-! ## Grouping a list by a key -/

section Index

variable {α : Type v}

/-- Append to the list stored under a key, which starts out empty. -/
def push (t : Table κ (List α)) (k : κ) (x : α) : Table κ (List α) :=
  t.upsert k ((t.get? k).getD [] ++ [x])

/-- Group the elements of a list by key, in list order. -/
def index (key : α → κ) (l : List α) : Table κ (List α) :=
  l.foldl (fun t x => t.push (key x) x) empty

/-- The last element of the list is the last one pushed. -/
theorem index_append_singleton (key : α → κ) (l : List α) (x : α) :
    index key (l ++ [x]) = (index key l).push (key x) x :=
  List.foldl_concat ..

theorem get?_push (t : Table κ (List α)) (k k' : κ) (x : α) :
    (t.push k x).get? k' = if k' = k then some ((t.get? k).getD [] ++ [x]) else t.get? k' :=
  get?_upsert t k k' _

/-- Under each key the index holds the elements of that key, in list order. -/
theorem getD_get?_index (key : α → κ) (l : List α) (k : κ) :
    ((index key l).get? k).getD [] = l.filter fun x => decide (key x = k) := by
  induction l using List.reverseRecOn with
  | nil => rfl
  | append_singleton l x ih =>
      rw [index_append_singleton, get?_push, List.filter_append, ← ih]
      by_cases hk : k = key x
      · simp [hk]
      · simp [hk, Ne.symm hk]

/-- A key without elements has no group. -/
theorem get?_index_eq_none_iff (key : α → κ) (l : List α) (k : κ) :
    (index key l).get? k = none ↔ k ∉ l.map key := by
  induction l using List.reverseRecOn with
  | nil => simp [index]
  | append_singleton l x ih =>
      rw [index_append_singleton, get?_push, List.map_append, List.mem_append, not_or, ← ih]
      by_cases hk : k = key x
      · simp [hk]
      · simp [hk]

/-- The index has exactly the keys of the elements. -/
theorem get?_index (key : α → κ) (l : List α) (k : κ) :
    (index key l).get? k =
      if k ∈ l.map key then some (l.filter fun x => decide (key x = k)) else none := by
  have hgroup := getD_get?_index key l k
  split_ifs with hk
  · cases hget : (index key l).get? k with
    | none => exact absurd hk ((get?_index_eq_none_iff key l k).mp hget)
    | some group =>
        rw [hget, Option.getD_some] at hgroup
        rw [hgroup]
  · exact (get?_index_eq_none_iff key l k).mpr hk

/-- A group holds the elements of its key, and there are some. -/
theorem mem_rows_index_iff [DecidableEq κ] (key : α → κ) (l : List α) {g : κ × List α} :
    g ∈ (index key l).rows ↔
      g.1 ∈ l.map key ∧ g.2 = l.filter fun x => decide (key x = g.1) := by
  rw [← Prod.mk.eta (p := g), mem_rows_iff, get?_index]
  split_ifs with hmem
  · simp [hmem, eq_comm]
  · simp [hmem]

/-- Lists split by keys and put together again are the whole list in another order. -/
theorem flatMap_filter_perm (key : α → κ) {ks : List κ} (hks : ks.Nodup) (l : List α)
    (hl : ∀ x ∈ l, key x ∈ ks) :
    (ks.flatMap fun k => l.filter fun x => decide (key x = k)).Perm l := by
  induction ks generalizing l with
  | nil =>
      rw [List.eq_nil_iff_forall_not_mem.mpr fun x hx => List.not_mem_nil (hl x hx)]
      rfl
  | cons k ks ih =>
      obtain ⟨hk, hks⟩ := List.nodup_cons.mp hks
      have hrest : ∀ k' ∈ ks, (l.filter fun x => decide (key x = k')) =
          (l.filter fun x => !decide (key x = k)).filter fun x => decide (key x = k') := by
        intro k' hk'
        rw [List.filter_filter]
        refine List.filter_congr fun x _ => ?_
        by_cases hx : key x = k'
        · have hne : k' ≠ k := fun heq => hk (heq ▸ hk')
          simp [hx, hne]
        · simp [hx]
      have hmem : ∀ x ∈ l.filter fun x => !decide (key x = k), key x ∈ ks := by
        intro x hx
        obtain ⟨hxl, hne⟩ := List.mem_filter.mp hx
        exact (List.mem_cons.mp (hl x hxl)).resolve_left (by simpa using hne)
      rw [List.flatMap_cons, List.flatMap_congr hrest]
      exact ((ih hks _ hmem).append_left _).trans
        (List.filter_append_perm (fun x => decide (key x = k)) l)

/-- The groups hold every element once. -/
theorem flatMap_index_perm (key : α → κ) (l : List α) :
    ((index key l).rows.flatMap Prod.snd).Perm l := by
  have hrows : (index key l).rows.flatMap Prod.snd =
      ((index key l).rows.map Prod.fst).flatMap fun k => l.filter fun x => decide (key x = k) := by
    rw [List.flatMap_map]
    exact List.flatMap_congr fun g hg => ((mem_rows_index_iff key l).mp hg).2
  rw [hrows]
  refine flatMap_filter_perm key ?_ l fun x hx => ?_
  · exact (List.pairwise_map.mpr (index key l).ascending).imp ne_of_lt
  · refine List.mem_map.mpr ⟨(key x, l.filter fun y => decide (key y = key x)), ?_, rfl⟩
    exact (mem_rows_index_iff key l).mpr ⟨List.mem_map_of_mem hx, rfl⟩

end Index

end Table

end KeyedTable
