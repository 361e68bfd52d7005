import Statskboo.Lib.KeyedTable

/-!
# Remembered answers

A table remembers the answers of a function under keys that stand for its arguments.  The table
does not say how an entry was computed; it is coherent when every entry is what the function
answers for its key.  Lookups of coherent tables answer what the function does, and leave a
coherent table.

Main results:

- Theorem {lit}`lookup_fst`: a lookup answers what the function does.
- Theorem {lit}`Coherent.lookup`: a lookup leaves a coherent table.
-/

namespace Memo

open KeyedTable

universe u v

variable {κ : Type u} {ν : Type v} [LinearOrder κ]

/-- Answer from the table, or compute the answer and remember it. -/
def lookup (t : Table κ ν) (k : κ) (computed : ν) : ν × Table κ ν :=
  match t.get? k with
  | some v => (v, t)
  | none => (computed, t.upsert k computed)

/-- Every entry is what the function answers for its key. -/
def Coherent (f : κ → ν) (t : Table κ ν) : Prop :=
  ∀ k v, t.get? k = some v → v = f k

variable {f : κ → ν} {t : Table κ ν}

/-- A table without entries is coherent. -/
theorem coherent_empty : Coherent f (Table.empty : Table κ ν) := by
  intro k v h
  cases h

/-- A lookup answers what the function does. -/
theorem lookup_fst (h : Coherent f t) (k : κ) : (lookup t k (f k)).1 = f k := by
  unfold lookup
  cases hentry : t.get? k with
  | none => rfl
  | some v => exact h k v hentry

/-- A lookup leaves a coherent table. -/
theorem Coherent.lookup (h : Coherent f t) (k : κ) : Coherent f (lookup t k (f k)).2 := by
  unfold Memo.lookup
  cases hentry : t.get? k with
  | some v => exact h
  | none =>
      intro k' v hv
      dsimp only at hv
      rw [Table.get?_upsert] at hv
      split_ifs at hv with hkey
      · rw [hkey, ← Option.some.inj hv]
      · exact h k' v hv

end Memo
