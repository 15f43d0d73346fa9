import Mathlib.Data.List.Basic

/-!
# Programs of durable steps

What it takes for a computation that may fail to succeed, and programs of such computations.
A program is a list of steps. Each reads the state and makes a new one or fails, and a
failure ends the program with the state it was found in. An interruption after `n` steps
leaves the state the first `n` made. A program whose steps do nothing once they are done
can be interrupted and started again: the end is that of the first run (`run_interrupted`).
-/

namespace Lib

/-! ## Results -/

section Results

variable {α β ε : Type*}

theorem bind_ok_iff {α β ε : Type} {x : Except ε α} {f : α → Except ε β} {out : β} :
    (x >>= f) = .ok out ↔ ∃ a, x = .ok a ∧ f a = .ok out := by
  cases x with
  | error e => exact ⟨fun failed => (nomatch failed), fun ⟨_, failed, _⟩ => (nomatch failed)⟩
  | ok a =>
    refine ⟨fun ok => ⟨a, rfl, ok⟩, ?_⟩
    rintro ⟨_, ⟨⟩, ok⟩
    exact ok

/-- A list is mapped when each of its elements is. -/
theorem mapM_ok_iff {α β ε : Type} [Nonempty β] {f : α → Except ε β} {l : List α} {out : List β} :
    l.mapM f = .ok out ↔ ∃ g : α → β, (∀ a ∈ l, f a = .ok (g a)) ∧ out = l.map g := by
  have forward : ∀ {l : List α} {g : α → β}, (∀ a ∈ l, f a = .ok (g a)) →
      l.mapM f = .ok (l.map g) := by
    intro l g each
    induction l with
    | nil => rfl
    | cons a l ih =>
      rw [List.mapM_cons, each a List.mem_cons_self,
        ih fun a member => each a (List.mem_cons_of_mem _ member)]
      rfl
  constructor
  · intro mapped
    classical
    let g : α → β := fun a => if ok : ∃ b, f a = .ok b then ok.choose else Classical.arbitrary β
    have each : ∀ a ∈ l, f a = .ok (g a) := by
      have found : ∀ {a b}, f a = .ok b → f a = .ok (g a) := by
        intro a b ok
        have ok : ∃ b, f a = .ok b := ⟨b, ok⟩
        simp only [g, dif_pos ok]
        exact ok.choose_spec
      induction l generalizing out with
      | nil => exact fun a member => absurd member List.not_mem_nil
      | cons a l ih =>
        rw [List.mapM_cons] at mapped
        obtain ⟨b, first, mapped⟩ := bind_ok_iff.mp mapped
        obtain ⟨bs, rest, -⟩ := bind_ok_iff.mp mapped
        exact List.forall_mem_cons.mpr ⟨found first, ih rest⟩
    rw [forward each] at mapped
    exact ⟨g, each, (Except.ok.inj mapped).symm⟩
  · rintro ⟨g, each, rfl⟩
    exact forward each

theorem map_ok_iff {x : Except ε α} {f : α → β} {out : β} :
    x.map f = .ok out ↔ ∃ a, x = .ok a ∧ out = f a := by
  cases x with
  | error e => exact ⟨fun failed => (nomatch failed), fun ⟨_, failed, _⟩ => (nomatch failed)⟩
  | ok a =>
    refine ⟨fun ok => ⟨a, rfl, (Except.ok.inj ok).symm⟩, ?_⟩
    rintro ⟨_, ⟨⟩, rfl⟩
    rfl

/-- A check that passes. -/
theorem ensure_ok_iff {p : Prop} [Decidable p] {x : Except ε α} {e : ε} {out : α} :
    (if p then x else .error e) = .ok out ↔ p ∧ x = .ok out := by
  split
  · next holds => exact (and_iff_right holds).symm
  · next fails => exact ⟨fun failed => (nomatch failed), fun ⟨holds, _⟩ => absurd holds fails⟩

/-- A refusal that does not apply. -/
theorem refuse_ok_iff {p : Prop} [Decidable p] {x : Except ε α} {e : ε} {out : α} :
    (if p then .error e else x) = .ok out ↔ ¬p ∧ x = .ok out := by
  split
  · next holds => exact ⟨fun failed => (nomatch failed), fun ⟨fails, _⟩ => absurd holds fails⟩
  · next fails => exact (and_iff_right fails).symm

end Results

namespace Steps

/-! ## Programs -/

variable {σ ε : Type*}

/-- The state a program ends in, and why it stopped if it failed. -/
def run : List (σ → Except ε σ) → σ → σ × Option ε
  | [], s => (s, none)
  | step :: rest, s =>
    match step s with
    | .ok s' => run rest s'
    | .error e => (s, some e)

/-- The state that an interruption after `n` steps leaves. -/
def interrupted (steps : List (σ → Except ε σ)) (n : Nat) (s : σ) : σ := (run (steps.take n) s).1

variable {rest steps : List (σ → Except ε σ)} {s s' : σ}

theorem run_cons_ok (ok : step s = .ok s') : run (step :: rest) s = run rest s' := by
  rw [run, ok]

theorem run_cons_done :
    run (step :: rest) s = (s', none) ↔ ∃ between, step s = .ok between ∧
      run rest between = (s', none) := by
  rw [run]
  cases step s with
  | ok between =>
    constructor
    · exact fun done => ⟨between, rfl, done⟩
    · rintro ⟨_, ⟨⟩, done⟩
      exact done
  | error e =>
    constructor
    · intro failed
      cases (Prod.mk.inj failed).2
    · rintro ⟨_, ⟨⟩, _⟩

theorem run_append_done :
    run (front ++ rest) s = (s', none) ↔ ∃ between, run front s = (between, none) ∧
      run rest between = (s', none) := by
  induction front generalizing s with
  | nil =>
    constructor
    · exact fun done => ⟨s, rfl, done⟩
    · rintro ⟨_, ⟨⟩, done⟩
      exact done
  | cons step front ih =>
    rw [List.cons_append]
    simp only [ih, run_cons_done]
    constructor
    · rintro ⟨first, ok, between, done, rest⟩
      exact ⟨between, ⟨first, ok, done⟩, rest⟩
    · rintro ⟨between, ⟨first, ok, done⟩, rest⟩
      exact ⟨first, ok, between, done, rest⟩

theorem run_append_ok (done : run front s = (s', none)) : run (front ++ rest) s = run rest s' := by
  induction front generalizing s with
  | nil =>
    cases done
    rfl
  | cons step front ih =>
    obtain ⟨between, ok, done⟩ := run_cons_done.mp done
    rw [List.cons_append, run_cons_ok ok, ih done]

/-- A program with one step for each item, when no step changes what the others need. -/
theorem run_map_done {α : Type*} {step : α → σ → Except ε σ} {P : α → σ → Prop} {f : α → σ → σ}
    (ok : ∀ a s s', step a s = .ok s' ↔ P a s ∧ s' = f a s) (kept : ∀ a b s, P a (f b s) ↔ P a s)
    {items : List α} :
    run (items.map step) s = (s', none) ↔
      (∀ a ∈ items, P a s) ∧ s' = items.foldl (fun s a => f a s) s := by
  induction items generalizing s with
  | nil =>
    constructor
    · rintro ⟨⟩
      exact ⟨fun _ member => absurd member List.not_mem_nil, rfl⟩
    · rintro ⟨-, rfl⟩
      rfl
  | cons a items ih =>
    rw [List.map_cons, run_cons_done]
    simp only [ok, ih, List.forall_mem_cons]
    constructor
    · rintro ⟨_, ⟨first, rfl⟩, rest, rfl⟩
      exact ⟨⟨first, fun b member => (kept b a s).mp (rest b member)⟩, rfl⟩
    · rintro ⟨⟨first, rest⟩, rfl⟩
      exact ⟨_, ⟨first, rfl⟩, fun b member => (kept b a s).mpr (rest b member), rfl⟩

/-- What each step makes of what the one before it made. The program stops at one of these
points, and if it does not fail, at the last. -/
theorem run_indexed {P : Nat → σ → Prop}
    (each : ∀ j step, steps[j]? = some step → ∀ s s', P j s → step s = .ok s' → P (j + 1) s')
    (start : P 0 s) :
    (∃ j ≤ steps.length, P j (run steps s).1) ∧
      ((run steps s).2 = none → P steps.length (run steps s).1) := by
  induction steps generalizing P s with
  | nil => exact ⟨⟨0, Nat.le_refl _, start⟩, fun _ => start⟩
  | cons step rest ih =>
    rw [run]
    cases ok : step s with
    | error e => exact ⟨⟨0, Nat.zero_le _, start⟩, fun done => (nomatch done)⟩
    | ok s' =>
      obtain ⟨⟨j, bound, reached⟩, last⟩ := @ih s' (fun j => P (j + 1))
        (fun j step listed => each (j + 1) step listed) (each 0 step rfl s s' start ok)
      exact ⟨⟨j + 1, Nat.succ_le_succ bound, reached⟩, last⟩

/-- A program whose every step succeeds on what the one before it made. -/
theorem run_succeeds {P : Nat → σ → Prop}
    (each : ∀ j step, steps[j]? = some step → ∀ s, P j s → ∃ s', step s = .ok s' ∧ P (j + 1) s')
    (start : P 0 s) : (run steps s).2 = none := by
  induction steps generalizing P s with
  | nil => rfl
  | cons step rest ih =>
    obtain ⟨s', ok, next⟩ := each 0 step rfl s start
    rw [run_cons_ok ok]
    exact @ih s' (fun j => P (j + 1)) (fun j step listed => each (j + 1) step listed) next

theorem interrupted_indexed {P : Nat → σ → Prop}
    (each : ∀ j step, steps[j]? = some step → ∀ s s', P j s → step s = .ok s' → P (j + 1) s')
    (n : Nat) (start : P 0 s) : ∃ j ≤ steps.length, P j (interrupted steps n s) := by
  have front : ∀ j step, (steps.take n)[j]? = some step → ∀ s s', P j s → step s = .ok s' →
      P (j + 1) s' := by
    intro j step listed
    rw [List.getElem?_take] at listed
    split at listed
    · exact each j step listed
    · cases listed
  obtain ⟨j, bound, reached⟩ := (run_indexed front start).1
  exact ⟨j, Nat.le_trans bound (List.length_take_le' n steps), reached⟩

/-- What each step keeps holds wherever the program stops. -/
theorem run_preserves {P : σ → Prop} (each : ∀ step ∈ steps, ∀ s s', P s → step s = .ok s' → P s')
    (start : P s) : P (run steps s).1 := by
  induction steps generalizing s with
  | nil => exact start
  | cons step rest ih =>
    rw [run]
    cases ok : step s with
    | error e => exact start
    | ok s' =>
      exact ih (fun step member => each step (List.mem_cons_of_mem _ member))
        (each step List.mem_cons_self s s' start ok)

theorem interrupted_preserves {P : σ → Prop}
    (each : ∀ step ∈ steps, ∀ s s', P s → step s = .ok s' → P s') (n : Nat) (start : P s) :
    P (interrupted steps n s) :=
  run_preserves (fun step member => each step (List.mem_of_mem_take member)) start

/-- Steps that do nothing once they are done, whatever other steps follow. -/
structure Settling (steps : List (σ → Except ε σ)) : Prop where
  settles : ∀ step ∈ steps, ∀ s s', step s = .ok s' → step s' = .ok s'
  stays : ∀ step ∈ steps, ∀ other ∈ steps, ∀ s s', step s = .ok s → other s = .ok s' →
    step s' = .ok s'

/-- Steps that are settled can be run again. -/
theorem run_settled (each : ∀ step ∈ settled, step s = .ok s) :
    run (settled ++ rest) s = run rest s := by
  induction settled with
  | nil => rfl
  | cons step settled ih =>
    rw [List.cons_append, run_cons_ok (each step List.mem_cons_self)]
    exact ih fun step member => each step (List.mem_cons_of_mem _ member)

/-- Starting again after an interruption ends as the uninterrupted program does. -/
theorem run_interrupted (settling : Settling steps) (n : Nat) (s : σ) :
    run steps (interrupted steps n s) = run steps s := by
  -- `past` ran before and is settled, `front` is run until the interruption
  suffices general : ∀ (front past rest : List (σ → Except ε σ)) (s : σ),
      Settling (past ++ (front ++ rest)) → (∀ step ∈ past, step s = .ok s) →
      run (past ++ (front ++ rest)) (run front s).1 = run (front ++ rest) s by
    have cut := general (steps.take n) [] (steps.drop n) s
    rw [List.take_append_drop] at cut
    exact cut settling fun _ member => absurd member List.not_mem_nil
  intro front
  induction front with
  | nil => exact fun past rest s _ settled => run_settled settled
  | cons step front ih =>
    intro past rest s settling settled
    rw [List.cons_append, run, run]
    have member : step ∈ past ++ (step :: front ++ rest) :=
      List.mem_append_right _ List.mem_cons_self
    cases ok : step s with
    | error e =>
      rw [run_settled settled, run, ok]
    | ok s' =>
      have reassociated :
          past ++ step :: (front ++ rest) = (past ++ [step]) ++ (front ++ rest) := by
        rw [List.append_assoc, List.singleton_append]
      rw [List.cons_append] at settling member
      rw [reassociated] at settling member ⊢
      refine ih (past ++ [step]) rest s' settling fun done listed => ?_
      rcases List.mem_append.mp listed with earlier | last
      · exact settling.stays done (List.mem_append_left _ (List.mem_append_left _ earlier)) step
          member s s' (settled done earlier) ok
      · obtain rfl := List.mem_singleton.mp last
        exact settling.settles done member s s' ok

end Steps

end Lib
