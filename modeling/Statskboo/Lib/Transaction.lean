import Mathlib.Data.List.Basic
import Mathlib.Tactic.Common

/-!
# Transactions that may stop at any call

A client of a database issues calls one after another: reads, the statements of a
transaction between its begin and its commit, further transactions.  When a call
fails the client stops and the open transaction is rolled back, so what is left
behind is the last committed state.

Main results:

- Theorem {lit}`leftBehind_transaction_append`: a transaction that stops before its
  commit leaves the state before it.
- Theorem {lit}`leftBehind_transactions`: a sequence of transactions leaves the
  effect of those that were committed before the stop.
-/

namespace Transaction

universe u v

/-- One call of a client. -/
inductive Call (σ : Type v) where
  | select
  | begin
  | exec (stmt : σ)
  | commit

/-- The committed state and the working copy of the open transaction. -/
structure Session (δ : Type u) where
  committed : δ
  working : δ

section Calls

variable {δ : Type u} {σ : Type v} (exec : δ → σ → Option δ)

/-- The effect of one call; a statement may be rejected. -/
def call (s : Session δ) : Call σ → Option (Session δ)
  | .select => some s
  | .begin => some { s with working := s.committed }
  | .exec stmt => (exec s.working stmt).map fun db => { s with working := db }
  | .commit => some { committed := s.working, working := s.working }

/-- The state left behind when the client issues these calls and then stops, or stops
at the first rejected one. -/
def leftBehind (s : Session δ) : List (Call σ) → δ
  | [] => s.committed
  | c :: cs =>
      match call exec s c with
      | none => s.committed
      | some s' => leftBehind s' cs

/-- The calls of one transaction. -/
def transaction (stmts : List σ) : List (Call σ) :=
  Call.begin :: (stmts.map Call.exec ++ [Call.commit])

/-- Whether a call is a commit. -/
def Call.isCommit : Call σ → Bool
  | .commit => true
  | _ => false

/-- The number of commits among some calls. -/
def commits (calls : List (Call σ)) : Nat :=
  calls.countP Call.isCommit

@[simp]
theorem leftBehind_nil (s : Session δ) : leftBehind exec s [] = s.committed :=
  rfl

@[simp]
theorem leftBehind_select (s : Session δ) (cs : List (Call σ)) :
    leftBehind exec s (Call.select :: cs) = leftBehind exec s cs :=
  rfl

/-- A client that stops at a read leaves what it would leave without the read. -/
theorem leftBehind_take_select (s : Session δ) (cs : List (Call σ)) (n : Nat) :
    leftBehind exec s ((Call.select :: cs).take n) = leftBehind exec s (cs.take (n - 1)) := by
  cases n with
  | zero => rfl
  | succ n => rfl

theorem commits_take_select (cs : List (Call σ)) (n : Nat) :
    commits ((Call.select :: cs).take n) = commits (cs.take (n - 1)) := by
  cases n with
  | zero => rfl
  | succ n =>
      rw [List.take_succ_cons, commits, List.countP_cons]
      rfl

theorem length_transaction (stmts : List σ) : (transaction stmts).length = stmts.length + 2 := by
  simp [transaction]

/-- The statements of a transaction that stops early change only the working copy. -/
theorem leftBehind_exec_append {stmts : List σ} {c w w' : δ} {rest : List (Call σ)}
    (h : stmts.foldlM exec w = some w') (n : Nat) :
    leftBehind exec ⟨c, w⟩ ((stmts.map Call.exec ++ Call.commit :: rest).take n) =
      if stmts.length + 1 ≤ n then leftBehind exec ⟨w', w'⟩ (rest.take (n - (stmts.length + 1)))
      else c := by
  induction stmts generalizing w n with
  | nil =>
      cases h
      cases n with
      | zero => rfl
      | succ n =>
          rw [if_pos (by simp), List.map_nil, List.nil_append, List.take_succ_cons]
          simp [leftBehind, call]
  | cons stmt stmts ih =>
      obtain ⟨w₁, hstmt, hrest⟩ := Option.bind_eq_some_iff.mp h
      cases n with
      | zero => rfl
      | succ n =>
          rw [List.map_cons, List.cons_append, List.take_succ_cons]
          have hcall : call exec ⟨c, w⟩ (Call.exec stmt) = some ⟨c, w₁⟩ := by
            simp [call, hstmt]
          rw [leftBehind, hcall]
          dsimp only
          rw [ih hrest n, List.length_cons]
          have hiff : stmts.length + 1 + 1 ≤ n + 1 ↔ stmts.length + 1 ≤ n := by omega
          simp only [hiff, Nat.add_sub_add_right]

/-- A transaction that stops before its commit leaves the state before it; one that is
committed leaves its effect. -/
theorem leftBehind_transaction_append {stmts : List σ} {c c' w : δ} {rest : List (Call σ)}
    (h : stmts.foldlM exec c = some c') (n : Nat) :
    leftBehind exec ⟨c, w⟩ ((transaction stmts ++ rest).take n) =
      if stmts.length + 2 ≤ n then leftBehind exec ⟨c', c'⟩ (rest.take (n - (stmts.length + 2)))
      else c := by
  cases n with
  | zero => rfl
  | succ n =>
      rw [transaction, List.cons_append, List.take_succ_cons, List.append_assoc,
        List.singleton_append]
      change leftBehind exec ⟨c, c⟩ _ = _
      rw [leftBehind_exec_append exec h n]
      have hiff : stmts.length + 2 ≤ n + 1 ↔ stmts.length + 1 ≤ n := by omega
      have hsub : n + 1 - (stmts.length + 2) = n - (stmts.length + 1) := by omega
      simp only [hiff, hsub]

/-- A transaction with a rejected statement leaves the state before it. -/
theorem leftBehind_transaction_of_none {stmts : List σ} {c w : δ}
    (h : stmts.foldlM exec c = none) (n : Nat) :
    leftBehind exec ⟨c, w⟩ ((transaction stmts).take n) = c := by
  have hexec : ∀ (stmts : List σ) (w : δ) (n : Nat), stmts.foldlM exec w = none →
      leftBehind exec ⟨c, w⟩ ((stmts.map Call.exec ++ [Call.commit]).take n) = c := by
    intro stmts
    induction stmts with
    | nil =>
        intro w n h
        cases h
    | cons stmt stmts ih =>
        intro w n h
        cases n with
        | zero => rfl
        | succ n =>
            rw [List.map_cons, List.cons_append, List.take_succ_cons, leftBehind]
            cases hstmt : exec w stmt with
            | none => simp [call, hstmt]
            | some w' =>
                have hrest : stmts.foldlM exec w' = none := by
                  simpa [List.foldlM_cons, hstmt] using h
                simpa [call, hstmt] using ih w' n hrest
  cases n with
  | zero => rfl
  | succ n =>
      rw [transaction, List.take_succ_cons]
      exact hexec stmts c n h

/-- A transaction whose statements are accepted takes effect with its last call. -/
theorem leftBehind_transaction {stmts : List σ} {c c' w : δ}
    (h : stmts.foldlM exec c = some c') (n : Nat) :
    leftBehind exec ⟨c, w⟩ ((transaction stmts).take n) =
      if stmts.length + 2 ≤ n then c' else c := by
  rw [← List.append_nil (transaction stmts), leftBehind_transaction_append exec h n,
    List.take_nil, leftBehind_nil]

/-- Only the last call of a transaction is a commit. -/
theorem commits_transaction_append (stmts : List σ) (rest : List (Call σ)) (n : Nat) :
    commits ((transaction stmts ++ rest).take n) =
      if stmts.length + 2 ≤ n then commits (rest.take (n - (stmts.length + 2))) + 1 else 0 := by
  have hexec : ∀ l : List σ, (l.map Call.exec).countP Call.isCommit = 0 := by
    intro l
    rw [List.countP_map]
    exact List.countP_eq_zero.mpr (by simp [Call.isCommit])
  split_ifs with hn
  · rw [List.take_append, List.take_of_length_le (by rw [length_transaction]; exact hn),
      length_transaction, commits, List.countP_append, transaction]
    simp [hexec, Call.isCommit, commits, Nat.add_comm]
  · have htake : (transaction stmts ++ rest).take n =
        (Call.begin :: stmts.map Call.exec).take n := by
      rw [transaction, ← List.cons_append, List.append_assoc]
      refine List.take_append_of_le_length ?_
      simp only [List.length_cons, List.length_map]
      omega
    rw [htake, commits]
    have hle := List.Sublist.countP_le (p := Call.isCommit)
      (List.take_sublist n (Call.begin :: stmts.map Call.exec))
    have hzero : (Call.begin :: stmts.map Call.exec).countP Call.isCommit = 0 := by
      rw [List.countP_cons, hexec]
      rfl
    omega

/-- Every transaction of a sequence has one commit. -/
theorem commits_flatMap_transaction (batches : List (List σ)) :
    commits (batches.flatMap transaction) = batches.length := by
  induction batches with
  | nil => rfl
  | cons batch batches ih =>
      have h := commits_transaction_append batch (batches.flatMap transaction)
        (transaction batch ++ batches.flatMap transaction).length
      rw [List.take_length, if_pos] at h
      · rw [List.flatMap_cons, h, List.take_of_length_le, ih, List.length_cons]
        rw [List.length_append, length_transaction]
        omega
      · rw [List.length_append, length_transaction]
        omega

/-- A sequence of transactions, none of whose statements is rejected, leaves the effect
of those committed before the stop. -/
theorem leftBehind_transactions {batches : List (List σ)} {c c' w : δ} {rest : List (Call σ)}
    (h : batches.flatten.foldlM exec c = some c') (n : Nat) :
    ∃ c₁, (batches.take (commits ((batches.flatMap transaction).take n))).flatten.foldlM exec c =
        some c₁ ∧
      ∃ w', leftBehind exec ⟨c, w⟩ ((batches.flatMap transaction ++ rest).take n) =
        if (batches.flatMap transaction).length ≤ n then
          leftBehind exec ⟨c', w'⟩ (rest.take (n - (batches.flatMap transaction).length))
        else c₁ := by
  induction batches generalizing c w n with
  | nil =>
      cases h
      refine ⟨c', ?_, w, by simp⟩
      rw [List.take_nil]
      rfl
  | cons batch batches ih =>
      rw [List.flatten_cons, List.foldlM_append] at h
      obtain ⟨c₂, hbatch, hrest⟩ := Option.bind_eq_some_iff.mp h
      rw [List.flatMap_cons, commits_transaction_append, List.append_assoc,
        leftBehind_transaction_append exec hbatch, List.length_append, length_transaction]
      by_cases hn : batch.length + 2 ≤ n
      · obtain ⟨c₁, htake, w', hleft⟩ := ih (w := c₂) hrest (n - (batch.length + 2))
        refine ⟨c₁, ?_, w', ?_⟩
        · rw [if_pos hn, List.take_succ_cons, List.flatten_cons, List.foldlM_append, hbatch]
          exact htake
        · have hiff : batch.length + 2 + (batches.flatMap transaction).length ≤ n ↔
              (batches.flatMap transaction).length ≤ n - (batch.length + 2) := by omega
          rw [if_pos hn, hleft, ← Nat.sub_sub n (batch.length + 2)]
          simp only [hiff]
      · refine ⟨c, ?_, w, ?_⟩
        · rw [if_neg hn]
          rfl
        · rw [if_neg hn, if_neg]
          omega

end Calls

end Transaction
