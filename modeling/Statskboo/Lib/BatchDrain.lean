import Mathlib.Data.List.Sort
import Mathlib.Order.Defs.LinearOrder

/-!
# Draining a queue in bounded batches

A batch takes the first elements of an ordered queue; the good ones among them leave
it and the others stay where they are.  Batches are taken until one is short or has no
good element.  A good element that stands behind a whole batch of bad ones is starved:
no batch ever reaches it.

Main results:

- Theorem {lit}`starved_batch`: a batch starves nothing new and rescues nothing.
- Theorem {lit}`any_batch_of_stops`: what is left of the good elements when the batches
  stop is what was starved.
- Theorem {lit}`length_batch_lt`: a batch that does not stop makes progress.
- Theorem {lit}`starved_iff`: in an ordered queue an element is starved by the bad ones
  below it.
-/

namespace BatchDrain

universe u

variable {α : Type u} (good : α → Bool)

/-- The queue after one batch. -/
def batch (limit : Nat) (l : List α) : List α :=
  (l.take limit).filter (fun x => !good x) ++ l.drop limit

/-- Whether a batch is the last one: it is short, or nothing in it is good. -/
def stops (limit : Nat) (l : List α) : Bool :=
  decide ((l.take limit).length < limit) || decide ((l.take limit).countP good = 0)

/-- Whether some good element has at least the given number of bad ones before it. -/
def starved : Nat → List α → Bool
  | 0, l => l.any good
  | _ + 1, [] => false
  | n + 1, x :: xs => if good x then starved (n + 1) xs else starved n xs

variable {good}

@[simp]
theorem batch_zero (l : List α) : batch good 0 l = l := by
  simp [batch]

@[simp]
theorem batch_succ_cons (limit : Nat) (x : α) (xs : List α) :
    batch good (limit + 1) (x :: xs) =
      if good x then batch good limit xs else x :: batch good limit xs := by
  by_cases hx : good x <;> simp [batch, hx]

@[simp]
theorem starved_nil (n : Nat) : starved good n [] = false := by
  cases n <;> rfl

theorem batch_sublist (limit : Nat) (l : List α) : (batch good limit l).Sublist l := by
  have h := (List.filter_sublist (p := fun x => !good x) (l := l.take limit)).append
    (List.Sublist.refl (l.drop limit))
  rwa [List.take_append_drop] at h

/-- The good elements among the first ones leave the queue. -/
theorem mem_batch {limit : Nat} {l : List α} (hl : l.Nodup) {x : α} :
    x ∈ batch good limit l ↔ x ∈ l ∧ ¬ (x ∈ l.take limit ∧ good x = true) := by
  have hsplit : x ∈ l ↔ x ∈ l.take limit ∨ x ∈ l.drop limit := by
    rw [← List.mem_append, List.take_append_drop]
  have hdisjoint : x ∈ l.take limit → x ∉ l.drop limit := fun h h' =>
    List.disjoint_take_drop hl (Nat.le_refl limit) h h'
  rw [batch, List.mem_append, List.mem_filter, hsplit]
  cases good x with
  | false => simp
  | true =>
      simp only [Bool.not_true, Bool.false_eq_true, and_false, false_or, and_true]
      tauto

/-- A batch that is not longer than the barrier neither starves nor rescues. -/
theorem starved_batch {n limit : Nat} (h : limit ≤ n) (l : List α) :
    starved good n (batch good limit l) = starved good n l := by
  induction l generalizing n limit with
  | nil => simp [batch]
  | cons x xs ih =>
      cases limit with
      | zero => simp
      | succ limit =>
          obtain ⟨m, rfl⟩ : ∃ m, n = m + 1 := ⟨n - 1, by omega⟩
          rw [batch_succ_cons]
          by_cases hx : good x
          · rw [if_pos hx, ih (by omega)]
            simp [starved, hx]
          · rw [if_neg hx]
            simp only [starved, hx, Bool.false_eq_true, if_false]
            exact ih (by omega)

/-- Nothing is starved behind fewer elements than the barrier. -/
theorem starved_of_length_lt {n : Nat} {l : List α} (h : l.length < n) :
    starved good n l = false := by
  induction l generalizing n with
  | nil => exact starved_nil n
  | cons x xs ih =>
      obtain ⟨m, rfl⟩ : ∃ m, n = m + 1 := ⟨n - 1, by omega⟩
      rw [List.length_cons] at h
      rw [starved, ih (by omega), ih (by omega), ite_self]

/-- Behind a whole batch of bad elements everything good is starved. -/
theorem starved_of_bad {n : Nat} {l : List α} (h : ∀ x ∈ l.take n, good x = false) :
    starved good n l = (l.drop n).any good := by
  induction l generalizing n with
  | nil => simp
  | cons x xs ih =>
      cases n with
      | zero => rfl
      | succ n =>
          have hx : good x = false := h x (by simp)
          rw [starved, hx, List.drop_succ_cons]
          exact ih fun y hy => h y (by simp [hy])

/-- When the batches stop, the good elements that are left are the starved ones. -/
theorem any_batch_of_stops {limit : Nat} {l : List α} (h : stops good limit l = true) :
    (batch good limit l).any good = starved good limit l := by
  have hbatch : (batch good limit l).any good = (l.drop limit).any good := by
    simp [batch, List.any_append]
  rw [hbatch]
  rcases Bool.or_eq_true_iff.mp h with hshort | hbad
  · have hlen : l.length < limit := by
      have hmin := of_decide_eq_true hshort
      rw [List.length_take] at hmin
      omega
    rw [starved_of_length_lt hlen, List.drop_eq_nil_of_le hlen.le]
    rfl
  · refine (starved_of_bad fun x hx => ?_).symm
    have hnone := List.countP_eq_zero.mp (of_decide_eq_true hbad) x hx
    exact Bool.eq_false_iff.mpr hnone

/-- A batch that does not stop removes something. -/
theorem length_batch_lt {limit : Nat} {l : List α} (h : stops good limit l = false) :
    (batch good limit l).length < l.length := by
  have hgood : (l.take limit).countP good ≠ 0 :=
    of_decide_eq_false (Bool.or_eq_false_iff.mp h).2
  have hsplit := List.length_eq_countP_add_countP good (l := l.take limit)
  have hfilter : ((l.take limit).filter fun x => !good x).length =
      (l.take limit).countP fun x => !good x :=
    List.countP_eq_length_filter.symm
  have htotal : l.length = (l.take limit).length + (l.drop limit).length := by
    rw [← List.length_append, List.take_append_drop]
  rw [batch, List.length_append, hfilter]
  simp only [Bool.not_eq_true, ← Bool.not_eq_true'] at hsplit
  simp only [Bool.decide_eq_true] at hsplit
  omega

/-- In an ordered queue an element is starved by the bad elements below it. -/
theorem starved_iff [LinearOrder α] {n : Nat} {l : List α} (hl : l.Pairwise (· < ·)) :
    starved good n l = true ↔
      ∃ x ∈ l, good x = true ∧ n ≤ l.countP fun y => !good y && decide (y < x) := by
  induction l generalizing n with
  | nil => simp
  | cons x xs ih =>
      obtain ⟨hx, hxs⟩ := List.pairwise_cons.mp hl
      cases n with
      | zero => simp [starved]
      | succ n =>
          -- the head counts itself neither as starved nor, unless bad, as a barrier
          have hself : (x :: xs).countP (fun y => !good y && decide (y < x)) = 0 := by
            refine List.countP_eq_zero.mpr fun y hy hlt => ?_
            have hyx : y < x := by simpa using (Bool.and_eq_true_iff.mp hlt).2
            rcases List.mem_cons.mp hy with rfl | hmem
            · exact lt_irrefl _ hyx
            · exact lt_asymm hyx (hx y hmem)
          have hcount : ∀ z ∈ xs, (x :: xs).countP (fun y => !good y && decide (y < z)) =
              xs.countP (fun y => !good y && decide (y < z)) + if good x then 0 else 1 := by
            intro z hz
            rw [List.countP_cons]
            by_cases hg : good x <;> simp [hg, hx z hz]
          have htail : (∃ z ∈ x :: xs, good z = true ∧
              n + 1 ≤ (x :: xs).countP fun y => !good y && decide (y < z)) ↔
              ∃ z ∈ xs, good z = true ∧
                n + 1 ≤ (xs.countP fun y => !good y && decide (y < z)) + if good x then 0 else 1 := by
            constructor
            · rintro ⟨z, hz, hgz, hn⟩
              rcases List.mem_cons.mp hz with rfl | hmem
              · omega
              · exact ⟨z, hmem, hgz, hcount z hmem ▸ hn⟩
            · rintro ⟨z, hz, hgz, hn⟩
              exact ⟨z, List.mem_cons_of_mem x hz, hgz, (hcount z hz).symm ▸ hn⟩
          rw [htail]
          by_cases hg : good x
          · simp [starved, hg, ih hxs]
          · simp [starved, hg, ih hxs]

end BatchDrain
