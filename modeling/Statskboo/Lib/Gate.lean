import Mathlib.Data.List.Basic
import Statskboo.Lib.Run

/-!
# Sections behind one permit

Clients that share a state behind a semaphore with one permit.  A client takes the permit when
it enters its section and gives it back when it leaves, and nothing but a client inside changes
the shared state.  Events of different clients interleave in any way.

Main results:

- Theorem {lit}`Occupied.unique`: at most one client is inside.
- Theorem {lit}`occupied_run`: what holds when sections run one after the other holds in every
  interleaving.
- Theorem {lit}`client_run`: what each client keeps on its own, all of them keep.
-/

namespace Gate

open Transition

universe u

/-- What clients do: the phase in which a client starts, what an event does to the shared state
and to the phase of a client, and in which phases a client holds the permit. -/
structure Clients (ρ σ π ε : Type u) where
  start : ρ → π
  next : σ → π → ε → Option (σ × π)
  holds : π → Bool
  holds_start : ∀ r, holds (start r) = false
  /-- A client that stays outside leaves the shared state alone. -/
  quiet : ∀ {s p e s' p'}, next s p e = some (s', p') → holds p = false → holds p' = false → s' = s

/-- The shared state, the permit and the clients. -/
structure System (σ π : Type u) where
  shared : σ
  free : Bool
  clients : List π

/-- A client arrives, or an event reaches a client. -/
inductive Label (ρ ε : Type u) where
  | arrive (r : ρ)
  | client (i : Nat) (e : ε)

variable {ρ σ π ε : Type u}

/-- The state before the first client arrives. -/
def initial (s : σ) : System σ π where
  shared := s
  free := true
  clients := []

/-- The effect of a label; a client that enters waits until the permit is free. -/
def step (c : Clients ρ σ π ε) (s : System σ π) : Label ρ ε → Option (System σ π)
  | .arrive r => some { s with clients := s.clients ++ [c.start r] }
  | .client i e => do
      let p ← s.clients[i]?
      let (shared, p') ← c.next s.shared p e
      if c.holds p' && !c.holds p && !s.free then none
      else
        return { shared, free := !c.holds p' && (c.holds p || s.free),
                 clients := s.clients.set i p' }

/-! ## One client inside -/

section Section

variable {c : Clients ρ σ π ε} {I : σ → Option π → Prop} {s s' : System σ π}

/-- The client at a position is in its section. -/
def Inside (c : Clients ρ σ π ε) (s : System σ π) (i : Nat) (p : π) : Prop :=
  s.clients[i]? = some p ∧ c.holds p = true

/-- The permit is free and nobody is inside, or one client is inside and has taken it; and the
predicate holds of the shared state and the client inside. -/
inductive Occupied (c : Clients ρ σ π ε) (I : σ → Option π → Prop) (s : System σ π) : Prop where
  | empty (hfree : s.free = true) (hout : ∀ i p, ¬Inside c s i p) (hI : I s.shared none)
  | taken (i : Nat) (p : π) (htaken : s.free = false) (hin : Inside c s i p)
      (hone : ∀ j q, Inside c s j q → j = i) (hI : I s.shared (some p))

/-- What has to be shown of a section that runs on its own. -/
structure Keeps (c : Clients ρ σ π ε) (I : σ → Option π → Prop) : Prop where
  enters : ∀ {s p e s' p'}, c.next s p e = some (s', p') → c.holds p = false →
    c.holds p' = true → I s none → I s' (some p')
  stays : ∀ {s p e s' p'}, c.next s p e = some (s', p') → c.holds p = true →
    c.holds p' = true → I s (some p) → I s' (some p')
  leaves : ∀ {s p e s' p'}, c.next s p e = some (s', p') → c.holds p = true →
    c.holds p' = false → I s (some p) → I s' none

/-- What an event does. -/
theorem step_client {i : Nat} {e : ε} (h : step c s (.client i e) = some s') :
    ∃ p shared p', s.clients[i]? = some p ∧ c.next s.shared p e = some (shared, p') ∧
      (c.holds p = false → c.holds p' = true → s.free = true) ∧
      s' = { shared, free := !c.holds p' && (c.holds p || s.free),
             clients := s.clients.set i p' } := by
  obtain ⟨p, hp, h⟩ := Option.bind_eq_some_iff.mp h
  obtain ⟨⟨shared, p'⟩, hnext, h⟩ := Option.bind_eq_some_iff.mp h
  dsimp only at h
  split_ifs at h with hblocked
  cases h
  refine ⟨p, shared, p', hp, hnext, fun hout hin => ?_, rfl⟩
  simpa [hin, hout] using hblocked

/-- Who arrives is outside. -/
theorem inside_arrive (r : ρ) (i : Nat) (p : π) :
    Inside c { s with clients := s.clients ++ [c.start r] } i p ↔ Inside c s i p := by
  unfold Inside
  dsimp only
  rcases Nat.lt_or_ge i s.clients.length with hi | hi
  · rw [List.getElem?_append_left hi]
  · rw [List.getElem?_append_right hi, List.getElem?_eq_none hi]
    refine iff_of_false (fun h => ?_) (fun h => by cases h.1)
    have hmem := List.mem_singleton.mp (List.mem_of_getElem? h.1)
    rw [hmem, c.holds_start] at h
    cases h.2

/-- Who is inside after the client at one position has moved. -/
theorem inside_set {i : Nat} {p p' : π} (hi : s.clients[i]? = some p) (shared : σ) (free : Bool)
    (j : Nat) (q : π) :
    Inside c { shared, free, clients := s.clients.set i p' } j q ↔
      (j = i ∧ q = p' ∧ c.holds p' = true) ∨ (j ≠ i ∧ Inside c s j q) := by
  unfold Inside
  dsimp only
  by_cases hij : j = i
  · subst hij
    rw [List.getElem?_set_self (List.getElem?_eq_some_iff.mp hi).1, Option.some.injEq]
    constructor
    · rintro ⟨rfl, hin⟩
      exact Or.inl ⟨rfl, rfl, hin⟩
    · rintro (⟨-, rfl, hin⟩ | ⟨hne, -⟩)
      · exact ⟨rfl, hin⟩
      · exact absurd rfl hne
  · rw [List.getElem?_set_ne (Ne.symm hij)]
    simp [hij]

theorem occupied_step (hkeeps : Keeps c I) (s : System σ π) (l : Label ρ ε) (s' : System σ π)
    (h : Occupied c I s) (hstep : step c s l = some s') : Occupied c I s' := by
  cases l with
  | arrive r =>
      cases hstep
      cases h with
      | empty hfree hout hI =>
          exact .empty hfree (fun i p hin => hout i p ((inside_arrive r i p).mp hin)) hI
      | taken i p htaken hin hone hI =>
          exact .taken i p htaken ((inside_arrive r i p).mpr hin)
            (fun j q hq => hone j q ((inside_arrive r j q).mp hq)) hI
  | client i e =>
      obtain ⟨p, shared, p', hi, hnext, henter, rfl⟩ := step_client hstep
      have hinside := @inside_set _ _ _ _ c s i p p' hi shared
        (!c.holds p' && (c.holds p || s.free))
      cases hp : c.holds p <;> cases hp' : c.holds p' <;>
        simp only [hp, hp', Bool.not_true, Bool.not_false, Bool.true_and, Bool.false_and,
          Bool.true_or, Bool.false_or, Bool.false_eq_true, and_false, false_or,
          and_true] at hinside ⊢
      · -- the client stays outside
        obtain rfl := c.quiet hnext hp hp'
        cases h with
        | empty hfree hout hI =>
            exact .empty hfree (fun j q hq => hout j q ((hinside j q).mp hq).2) hI
        | taken k q htaken hin hone hI =>
            refine .taken k q htaken ((hinside k q).mpr ⟨?_, hin⟩)
              (fun j r hr => hone j r ((hinside j r).mp hr).2) hI
            rintro rfl
            have hq : q = p := Option.some.inj (hin.1.symm.trans hi)
            rw [← hq, hin.2] at hp
            cases hp
      · -- the client enters, so nobody was inside
        have hfree := henter hp hp'
        cases h with
        | empty _ hout hI =>
            refine .taken i p' rfl ((hinside i p').mpr (Or.inl ⟨rfl, rfl⟩)) ?_
              (hkeeps.enters hnext hp hp' hI)
            intro j q hq
            rcases (hinside j q).mp hq with ⟨rfl, -⟩ | ⟨-, hin⟩
            · rfl
            · exact absurd hin (hout j q)
        | taken _ _ htaken =>
            rw [htaken] at hfree
            cases hfree
      · -- the client leaves, and it was the only one inside
        cases h with
        | empty _ hout _ => exact absurd ⟨hi, hp⟩ (hout i p)
        | taken k q _ hin hone hI =>
            obtain rfl : i = k := hone i p ⟨hi, hp⟩
            obtain rfl : p = q := Option.some.inj (hi.symm.trans hin.1)
            refine .empty rfl (fun j r hr => ?_) (hkeeps.leaves hnext hp hp' hI)
            obtain ⟨hne, hin'⟩ := (hinside j r).mp hr
            exact hne (hone j r hin')
      · -- the client goes on inside
        cases h with
        | empty _ hout _ => exact absurd ⟨hi, hp⟩ (hout i p)
        | taken k q _ hin hone hI =>
            obtain rfl : i = k := hone i p ⟨hi, hp⟩
            obtain rfl : p = q := Option.some.inj (hi.symm.trans hin.1)
            refine .taken i p' rfl ((hinside i p').mpr (Or.inl ⟨rfl, rfl⟩)) ?_
              (hkeeps.stays hnext hp hp' hI)
            intro j r hr
            rcases (hinside j r).mp hr with ⟨rfl, -⟩ | ⟨-, hin'⟩
            · rfl
            · exact hone j r hin'

/-- What holds when sections run one after the other holds in every interleaving. -/
theorem occupied_run (hkeeps : Keeps c I) {s₀ : σ} (hI : I s₀ none) {labels : List (Label ρ ε)}
    (hrun : run (step c) (initial s₀) labels = some s) : Occupied c I s :=
  run_invariant (occupied_step hkeeps)
    (.empty rfl (fun i p hin => by simp [Inside, initial] at hin) hI) hrun

/-- At most one client is inside. -/
theorem Occupied.unique (h : Occupied c I s) {i j : Nat} {p q : π} (hi : Inside c s i p)
    (hj : Inside c s j q) : i = j := by
  cases h with
  | empty _ hout _ => exact absurd hi (hout i p)
  | taken k _ _ _ hone _ => rw [hone i p hi, hone j q hj]

/-- The predicate holds with nobody inside or with one of the clients. -/
theorem Occupied.exists_holds (h : Occupied c I s) : ∃ o, I s.shared o := by
  cases h with
  | empty _ _ hI => exact ⟨_, hI⟩
  | taken _ _ _ _ _ hI => exact ⟨_, hI⟩

end Section

/-! ## Each client on its own -/

/-- What each client has from the start and keeps on its own, all of them keep. -/
theorem client_run {c : Clients ρ σ π ε} {s : System σ π} {C : π → Prop}
    (hstart : ∀ r, C (c.start r))
    (hnext : ∀ {s p e s' p'}, c.next s p e = some (s', p') → C p → C p') {s₀ : σ}
    {labels : List (Label ρ ε)} (hrun : run (step c) (initial s₀) labels = some s) :
    ∀ p ∈ s.clients, C p := by
  refine run_invariant (P := fun s => ∀ p ∈ s.clients, C p) ?_ (by simp [initial]) hrun
  intro s l s' h hstep
  cases l with
  | arrive r =>
      cases hstep
      intro p hp
      rcases List.mem_append.mp hp with hp | hp
      · exact h p hp
      · rw [List.mem_singleton.mp hp]
        exact hstart r
  | client i e =>
      obtain ⟨p, shared, p', hi, hp', -, rfl⟩ := step_client hstep
      intro q hq
      rcases List.mem_or_eq_of_mem_set hq with hq | rfl
      · exact h q hq
      · exact hnext hp' (h p (List.mem_of_getElem? hi))

/-! ## Nobody waits for ever -/

/-- A client that has an event has one in the system as well, unless it waits for the permit that
another one holds. -/
theorem exists_step {c : Clients ρ σ π ε} {s : System σ π} {i : Nat} {p : π} {e : ε}
    {r : σ × π} (hi : s.clients[i]? = some p) (hnext : c.next s.shared p e = some r)
    (hpermit : c.holds p = false → c.holds r.2 = true → s.free = true) :
    ∃ s', step c s (.client i e) = some s' := by
  obtain ⟨shared, p'⟩ := r
  have hnot : (c.holds p' && !c.holds p && !s.free) = false := by
    cases hp : c.holds p <;> cases hp' : c.holds p' <;> simp_all
  exact ⟨_, by simp only [step, hi, hnext, hnot, Option.bind_eq_bind, Option.bind_some]; rfl⟩

end Gate
