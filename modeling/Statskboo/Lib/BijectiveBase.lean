import Mathlib.Data.List.Induction
import Mathlib.Tactic.Common

/-!
# Bijective numeration

In bijective base {lit}`k` the letters of a word stand for the numbers from one to
{lit}`k`; there is no zero.  The columns of a spreadsheet are named so.

Main results:

- Theorem {lit}`value_append_singleton`: the last letter counts once, the letters before
  it count {lit}`k` times.
- Theorem {lit}`value_injective`: a number has at most one name.
-/

namespace BijectiveBase

variable {α : Type*} {k : Nat} {digit : α → Nat} {letters letters' : List α}

/-- The number that letters name; a letter with the digit {lit}`d` stands for
{lit}`d + 1`. -/
def value (k : Nat) (digit : α → Nat) (letters : List α) : Nat :=
  letters.foldl (fun n l => k * n + (digit l + 1)) 0

/-- The last letter counts once. -/
@[simp]
theorem value_append_singleton (letters : List α) (l : α) :
    value k digit (letters ++ [l]) = k * value k digit letters + (digit l + 1) := by
  simp [value]

/-- Only the word without letters names zero. -/
theorem value_ne_zero (letters : List α) (l : α) : value k digit (letters ++ [l]) ≠ 0 := by
  rw [value_append_singleton]
  exact Nat.succ_ne_zero _

/-- Letters whose digits lie below the base. -/
def Digits (k : Nat) (digit : α → Nat) (letters : List α) : Prop :=
  ∀ l ∈ letters, digit l < k

theorem Digits.of_append_singleton {l : α} (h : Digits k digit (letters ++ [l])) :
    Digits k digit letters ∧ digit l < k :=
  ⟨fun l' hl' => h l' (List.mem_append_left _ hl'), h l (by simp)⟩

/-- The digit of the last letter is what is left of the number before it. -/
theorem value_last {l l' : α} (hl : digit l < k) (hl' : digit l' < k)
    (h : value k digit (letters ++ [l]) = value k digit (letters' ++ [l'])) :
    digit l = digit l' ∧ value k digit letters = value k digit letters' := by
  have hsum : k * value k digit letters + digit l = k * value k digit letters' + digit l' := by
    simpa [← Nat.add_assoc] using h
  have hdigit := congrArg (· % k) hsum
  simp only [Nat.mul_add_mod, Nat.mod_eq_of_lt hl, Nat.mod_eq_of_lt hl'] at hdigit
  refine ⟨hdigit, Nat.eq_of_mul_eq_mul_left (Nat.zero_lt_of_lt hl) ?_⟩
  omega

/-- A number has at most one name, when distinct letters have distinct digits. -/
theorem value_injective (hdigit : ∀ l ∈ letters, ∀ l' ∈ letters', digit l = digit l' → l = l')
    (hletters : Digits k digit letters) (hletters' : Digits k digit letters')
    (h : value k digit letters = value k digit letters') : letters = letters' := by
  induction letters using List.reverseRecOn generalizing letters' with
  | nil =>
      cases letters' using List.reverseRecOn with
      | nil => rfl
      | append_singleton letters' l' => exact absurd h.symm (value_ne_zero letters' l')
  | append_singleton letters l ih =>
      cases letters' using List.reverseRecOn with
      | nil => exact absurd h (value_ne_zero letters l)
      | append_singleton letters' l' =>
          obtain ⟨hinit, hl⟩ := hletters.of_append_singleton
          obtain ⟨hinit', hl'⟩ := hletters'.of_append_singleton
          obtain ⟨hlast, hvalue⟩ := value_last hl hl' h
          have hinits : letters = letters' := by
            refine ih (fun a ha b hb => ?_) hinit hinit' hvalue
            exact hdigit a (List.mem_append_left _ ha) b (List.mem_append_left _ hb)
          rw [hinits, hdigit l (by simp) l' (by simp) hlast]

end BijectiveBase
