import Mathlib.Algebra.Group.Nat.Defs
import Mathlib.Tactic.Common

/-!
# Computations that may panic

A fallible computation ends with a value or an error that its caller handles, or it panics
and takes its caller with it.  A retry loop repeats an attempt while its errors are
transient; it handles every error and no panic.

Main results:

- Theorem {lit}`Fails.bind`: a sequence fails when its first part does.
- Theorem {lit}`retry_fails`: a retry loop fails when each attempt does.
- Theorem {lit}`retry_panics`: a panic of the first attempt is one of the loop.
- Theorem {lit}`retry_eq_attempt`: the loop comes to what its last attempt comes to.
- Theorem {lit}`backoff_eq`: the delays between the attempts double up to a cap.
-/

universe u v w

/-- What a computation that may panic comes to. -/
inductive Panics (ε : Type u) (α : Type v) where
  | ok (a : α)
  | err (e : ε)
  | panic
deriving DecidableEq, Repr

namespace Panics

variable {ε : Type u} {ε' : Type w} {α β : Type v}

/-- The computation ends with an error. -/
def Fails (x : Panics ε α) : Prop :=
  ∃ e, x = err e

/-- Go on with the value of a computation. -/
def bind (x : Panics ε α) (f : α → Panics ε β) : Panics ε β :=
  match x with
  | ok a => f a
  | err e => err e
  | panic => panic

/-- Change the error of a computation. -/
def mapErr (f : ε → ε') : Panics ε α → Panics ε' α
  | ok a => ok a
  | err e => err (f e)
  | panic => panic

theorem Fails.not_panic {x : Panics ε α} (h : x.Fails) : x ≠ panic := by
  obtain ⟨e, rfl⟩ := h
  intro heq
  cases heq

/-- A sequence fails when its first part does. -/
theorem Fails.bind {x : Panics ε α} (h : x.Fails) (f : α → Panics ε β) : (x.bind f).Fails := by
  obtain ⟨e, rfl⟩ := h
  exact ⟨e, rfl⟩

/-- Repeat an attempt while its errors are transient, and so many times more at most. -/
def retry (transient : ε → Bool) (attempt : Nat → Panics ε α) : Nat → Nat → Panics ε α
  | n, 0 => attempt n
  | n, left + 1 =>
      match attempt n with
      | ok a => ok a
      | err e => if transient e then retry transient attempt (n + 1) left else err e
      | panic => panic

/-- A retry loop fails when each attempt does. -/
theorem retry_fails {transient : ε → Bool} {attempt : Nat → Panics ε α}
    (h : ∀ n, (attempt n).Fails) (n left : Nat) : (retry transient attempt n left).Fails := by
  induction left generalizing n with
  | zero => exact h n
  | succ left ih =>
      obtain ⟨e, he⟩ := h n
      rw [retry, he]
      dsimp only
      split_ifs
      · exact ih (n + 1)
      · exact ⟨e, rfl⟩

/-- A panic of the first attempt is one of the loop. -/
theorem retry_panics {transient : ε → Bool} {attempt : Nat → Panics ε α} {n : Nat}
    (h : attempt n = panic) (left : Nat) : retry transient attempt n left = panic := by
  cases left with
  | zero => exact h
  | succ left => rw [retry, h]

/-- The loop comes to what the first attempt comes to that is not a transient error, or the last
one that is allowed. -/
theorem retry_eq_attempt {transient : ε → Bool} {attempt : Nat → Panics ε α} {n k left : Nat}
    (hk : k ≤ left)
    (hbefore : ∀ j < k, ∃ e, attempt (n + j) = err e ∧ transient e = true)
    (hlast : k = left ∨ ∀ e, attempt (n + k) = err e → transient e = false) :
    retry transient attempt n left = attempt (n + k) := by
  induction k generalizing n left with
  | zero =>
      cases left with
      | zero => rfl
      | succ left =>
          have hstop := hlast.resolve_left (by omega)
          rw [retry]
          cases hn : attempt (n + 0) with
          | ok a => rfl
          | panic => rfl
          | err e =>
              dsimp only
              rw [hstop e hn, if_neg Bool.false_ne_true]
  | succ k ih =>
      obtain ⟨left, rfl⟩ : ∃ m, left = m + 1 := ⟨left - 1, by omega⟩
      obtain ⟨e, he, htransient⟩ := hbefore 0 (Nat.succ_pos k)
      rw [Nat.add_zero] at he
      have hshift : ∀ j, n + 1 + j = n + (j + 1) := fun j => by omega
      rw [retry, he]
      dsimp only
      have hrest := @ih (n + 1) left (by omega)
      simp only [hshift] at hrest
      rw [if_pos htransient]
      exact hrest (fun j hj => hbefore (j + 1) (by omega)) (hlast.imp (by omega) id)

/-! ## Delays between attempts -/

/-- The delay after an attempt, counted from zero: doubled each time, up to a cap. -/
def backoff (initial cap : Nat) : Nat → Nat
  | 0 => initial
  | n + 1 => min (backoff initial cap n * 2) cap

/-- The delays double up to the cap. -/
theorem backoff_eq {initial cap : Nat} (h : initial ≤ cap) (n : Nat) :
    backoff initial cap n = min (initial * 2 ^ n) cap := by
  induction n with
  | zero => rw [backoff, Nat.pow_zero, Nat.mul_one, Nat.min_eq_left h]
  | succ n ih =>
      rw [backoff, ih, Nat.pow_succ, ← Nat.mul_assoc]
      omega

end Panics
