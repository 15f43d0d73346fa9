import Mathlib.Data.List.Basic
import Mathlib.Data.List.Induction

/-!
# Runs of a labelled transition relation

A run remembers its whole history: each entry holds the state before the step,
the action, what the step answered, and the state after it. Statements of the
form "if this happens now, that happened earlier" are statements about the
history of a run.

* `Run.split`: an entry of a history splits the run at that entry;
* `Run.entry_step`: every entry is a step;
* `Run.preserves`, `Run.invariant`: the rules of invariants;
* `run_execute`, `run_executed`: a step function run on a list of actions gives a run, and
  `step_executed` a single step; `run_trace` is the same for a function that refuses nothing.
-/

namespace Lib

variable {α σ ω : Type*}

/-- Where an entry of a list with one more element at its end can be. -/
theorem snoc_cases (heq : h ++ [last] = pre ++ e :: post) :
    (pre = h ∧ e = last ∧ post = []) ∨ ∃ post', post = post' ++ [last] ∧ h = pre ++ e :: post' := by
  rcases List.eq_nil_or_concat post with rfl | ⟨post', x, rfl⟩
  · obtain ⟨rfl, same⟩ := List.append_inj' heq rfl
    exact .inl ⟨rfl, (List.singleton_inj.1 same).symm, rfl⟩
  · rw [List.concat_eq_append, ← List.cons_append, ← List.append_assoc] at heq
    obtain ⟨rfl, same⟩ := List.append_inj' heq rfl
    obtain rfl := List.singleton_inj.1 same
    exact .inr ⟨post', List.concat_eq_append, rfl⟩

theorem mem_snoc : e ∈ h ++ [e] := List.mem_append_right _ List.mem_cons_self

theorem mem_snoc_cases (member : x ∈ h ++ [e]) : x ∈ h ∨ x = e :=
  (List.mem_append.mp member).imp_right List.mem_singleton.mp

/-- An element with `P` that only elements with `Q` follow, in a list with one more element. -/
theorem since_snoc {P Q : α → Prop} {h : List α} :
    (∃ pre x post, h ++ [e] = pre ++ x :: post ∧ P x ∧ ∀ y ∈ post, Q y) ↔
      P e ∨ (∃ pre x post, h = pre ++ x :: post ∧ P x ∧ ∀ y ∈ post, Q y) ∧ Q e := by
  constructor
  · rintro ⟨pre, x, post, heq, holds, quiet⟩
    rcases snoc_cases heq with ⟨rfl, rfl, rfl⟩ | ⟨post, rfl, rfl⟩
    · exact .inl holds
    · obtain ⟨quiet, last⟩ := List.forall_mem_append.1 quiet
      exact .inr ⟨⟨pre, x, post, rfl, holds, quiet⟩, List.forall_mem_singleton.1 last⟩
  · rintro (holds | ⟨⟨pre, x, post, rfl, holds, quiet⟩, last⟩)
    · exact ⟨h, e, [], rfl, holds, List.forall_mem_nil _⟩
    · exact ⟨pre, x, post ++ [e], by simp, holds,
        List.forall_mem_append.2 ⟨quiet, List.forall_mem_singleton.2 last⟩⟩

theorem update_cases [DecidableEq ι] {f : ι → Option α}
    (held : Function.update f i x j = some y) : x = some y ∨ f j = some y := by
  rw [Function.update_apply] at held
  split at held
  · exact .inl held
  · exact .inr held

/-- A list that has an element with a property splits at the last one. -/
theorem split_last {P : α → Prop} {l : List α} (found : ∃ x ∈ l, P x) :
    ∃ pre x post, l = pre ++ x :: post ∧ P x ∧ ∀ y ∈ post, ¬P y := by
  induction l using List.reverseRecOn with
  | nil =>
    obtain ⟨_, member, -⟩ := found
    exact absurd member List.not_mem_nil
  | append_singleton l last ih =>
    by_cases holds : P last
    · exact ⟨l, last, [], rfl, holds, fun _ member => absurd member List.not_mem_nil⟩
    · obtain ⟨x, member, at_x⟩ := found
      rcases List.mem_append.1 member with before | at_last
      · obtain ⟨pre, y, post, rfl, at_y, none⟩ := ih ⟨x, before, at_x⟩
        refine ⟨pre, y, post ++ [last], ?_, at_y, fun z after => ?_⟩
        · rw [List.append_assoc, List.cons_append]
        · rcases List.mem_append.1 after with inside | at_end
          · exact none z inside
          · rwa [List.mem_singleton.1 at_end]
      · exact absurd (List.mem_singleton.1 at_last ▸ at_x) holds

/-- One step of a run, with everything an observer sees of it. -/
structure Entry (σ α ω : Type*) where
  before : σ
  act : α
  out : ω
  after : σ

/-- `step s a o s'`: in state `s` the action `a` may answer `o` and leave `s'`. -/
abbrev StepRel (σ α ω : Type*) := σ → α → ω → σ → Prop

/-- `Run step s₀ h s`: the history `h`, oldest entry first, leads from `s₀` to `s`. -/
inductive Run {σ α ω : Type*} (step : StepRel σ α ω) (s₀ : σ) : List (Entry σ α ω) → σ → Prop where
  | nil : Run step s₀ [] s₀
  | snoc {h : List (Entry σ α ω)} {s s' : σ} {a : α} {o : ω} :
      Run step s₀ h s → step s a o s' → Run step s₀ (h ++ [⟨s, a, o, s'⟩]) s'

namespace Run

variable {σ α ω : Type*} {step : StepRel σ α ω} {s₀ s s' : σ} {h : List (Entry σ α ω)}

/-- What every step keeps holds at the end of a run. -/
@[elab_as_elim]
theorem preserves {P : σ → Prop} (run : Run step s₀ h s) (first : P s₀)
    (keeps : ∀ {s a o s'}, step s a o s' → P s → P s') : P s := by
  induction run with
  | nil => exact first
  | snoc _ taken ih => exact keeps taken ih

section

variable (run : Run step s₀ h s)

include run

/-- What a step of a certain kind keeps, of the history and the state, holds of a run of such
steps. -/
@[elab_as_elim]
theorem invariant {P : List (Entry σ α ω) → σ → Prop} {Q : Entry σ α ω → Prop}
    (all : ∀ e ∈ h, Q e) (first : P [] s₀)
    (keeps : ∀ {h s a o s'}, Run step s₀ h s → (∀ e ∈ h, Q e) → step s a o s' →
      Q ⟨s, a, o, s'⟩ → P h s → P (h ++ [⟨s, a, o, s'⟩]) s') : P h s := by
  induction run with
  | nil => exact first
  | snoc run taken ih =>
    have before := fun e member => all e (List.mem_append_left _ member)
    exact keeps run before taken (all _ mem_snoc) (ih before)

/-- Where a step keeps a property exactly if it is of a certain kind, a run keeps it throughout
exactly if all its steps are, and then it holds at the end. -/
theorem always_iff {P : σ → Prop} {Q : Entry σ α ω → Prop} (first : P s₀)
    (keeps : ∀ {s a o s'}, step s a o s' → P s → (P s' ↔ Q ⟨s, a, o, s'⟩)) :
    ((∀ e ∈ h, P e.after) ↔ ∀ e ∈ h, Q e) ∧ ((∀ e ∈ h, Q e) → P s) := by
  induction run with
  | nil => exact ⟨by simp, fun _ => first⟩
  | snoc _ taken ih =>
    obtain ⟨same, reached⟩ := ih
    simp only [List.forall_mem_append, List.forall_mem_singleton]
    have last := fun all => keeps taken (reached all)
    exact ⟨and_congr_left' same |>.trans (and_congr_right last), fun all => (last all.1).2 all.2⟩

/-- An entry of a history splits the run: the history before it leads to the
state the entry started in, and the entry is a step of the relation. -/
theorem split :
    ∀ {pre post e}, h = pre ++ e :: post →
      Run step s₀ pre e.before ∧ step e.before e.act e.out e.after ∧ Run step e.after post s := by
  induction run with
  | nil => intro pre post e heq; simp at heq
  | @snoc h s s' a o run taken ih =>
    intro pre post e heq
    rcases snoc_cases heq with ⟨rfl, rfl, rfl⟩ | ⟨post', rfl, rfl⟩
    · exact ⟨run, taken, .nil⟩
    · obtain ⟨before, step_e, after⟩ := ih rfl
      exact ⟨before, step_e, .snoc after taken⟩

/-- Every entry of a history is a step taken from a state some prefix reached. -/
theorem entry_step (member : e ∈ h) : step e.before e.act e.out e.after := by
  obtain ⟨pre, post, rfl⟩ := List.append_of_mem member
  exact (run.split rfl).2.1

/-- The history before an entry leads to the state the entry started in. -/
theorem before (member : e ∈ h) : ∃ h', h' ⊆ h ∧ Run step s₀ h' e.before := by
  obtain ⟨pre, post, rfl⟩ := List.append_of_mem member
  exact ⟨pre, List.subset_append_left _ _, (run.split rfl).1⟩

/-- The history up to an entry, with the entry, leads to the state after it. -/
theorem upto (member : e ∈ h) : ∃ h', h' ⊆ h ∧ Run step s₀ h' e.after := by
  obtain ⟨h', part, before⟩ := run.before member
  refine ⟨h' ++ [e], ?_, .snoc before (run.entry_step member)⟩
  exact List.append_subset.2 ⟨part, List.cons_subset.2 ⟨member, List.nil_subset _⟩⟩

end

theorem cons (first : step s₀ a o s₁) (run : Run step s₁ h s) :
    Run step s₀ (⟨s₀, a, o, s₁⟩ :: h) s := by
  induction run with
  | nil => exact .snoc .nil first
  | snoc _ taken ih => exact .snoc ih taken

theorem append (run : Run step s₀ h s) (rest : Run step s h' s') : Run step s₀ (h ++ h') s' := by
  induction rest with
  | nil => rwa [List.append_nil]
  | snoc _ taken ih =>
    rw [← List.append_assoc]
    exact .snoc ih taken

end Run

/-- A condition on every entry of a history, and the entries before it. -/
def Throughout {α : Type*} (P : List α → α → Prop) (h : List α) : Prop :=
  ∀ pre e post, h = pre ++ e :: post → P pre e

theorem throughout_iff : Throughout P h ↔ ∀ i : Fin h.length, P (h.take i) (h.get i) := by
  constructor
  · intro all i
    refine all _ _ (h.drop (i + 1)) ?_
    rw [List.get_eq_getElem, ← List.drop_eq_getElem_cons i.isLt, List.take_append_drop]
  · rintro all pre e post rfl
    have at_e := all ⟨pre.length, by simp⟩
    simpa using at_e

theorem Throughout.front (all : Throughout P (h ++ rest)) : Throughout P h := by
  rintro pre e post rfl
  exact all pre e (post ++ rest) (by rw [List.append_assoc, List.cons_append])

instance {α : Type*} {P : List α → α → Prop} [∀ pre e, Decidable (P pre e)] {h : List α} :
    Decidable (Throughout P h) :=
  decidable_of_iff _ throughout_iff.symm

/-- Carry out a list of actions with a step function; `none` when one is refused. -/
def execute {σ α ω : Type*} (f : σ → α → Option (ω × σ)) :
    σ → List α → Option (List (Entry σ α ω) × σ)
  | s, [] => some ([], s)
  | s, a :: rest =>
    (f s a).bind fun (o, s') =>
      (execute f s' rest).map fun (h, last) => (⟨s, a, o, s'⟩ :: h, last)

theorem run_execute (acts : List α) (ran : execute f s acts = some (h, last)) :
    Run (fun s a o s' => f s a = some (o, s')) s h last := by
  induction acts generalizing s h with
  | nil =>
    cases ran
    exact .nil
  | cons a rest ih =>
    obtain ⟨⟨o, s'⟩, first, ran⟩ := Option.bind_eq_some_iff.mp ran
    obtain ⟨⟨h', last'⟩, ran, same⟩ := Option.map_eq_some_iff.mp ran
    cases same
    exact .cons first (ih ran)

/-- The history and the last state, once no action is refused. -/
def executed {σ α ω : Type*} (f : σ → α → Option (ω × σ)) (s : σ) (acts : List α) :
    List (Entry σ α ω) × σ :=
  (execute f s acts).getD ([], s)

theorem run_executed (acts : List α) (ran : (execute f s acts).isSome) :
    Run (fun s a o s' => f s a = some (o, s')) s (executed f s acts).1 (executed f s acts).2 := by
  obtain ⟨⟨h, last⟩, eq⟩ := Option.isSome_iff_exists.1 ran
  simp only [executed, eq]
  exact run_execute acts eq

theorem step_executed (s : σ) (a : α) (ran : (f s a).isSome) :
    ∃ o, f s a = some (o, (executed f s [a]).2) := by
  obtain ⟨⟨o, s'⟩, eq⟩ := Option.isSome_iff_exists.1 ran
  refine ⟨o, ?_⟩
  simp only [executed, execute, eq, Option.bind_some, Option.map_some, Option.getD_some]

/-- The history and the last state of a step function that refuses nothing. -/
def trace {σ α ω : Type*} (f : σ → α → ω × σ) (s : σ) : List α → List (Entry σ α ω) × σ
  | [] => ([], s)
  | a :: acts =>
    let (h, last) := trace f (f s a).2 acts
    (⟨s, a, (f s a).1, (f s a).2⟩ :: h, last)

theorem run_trace (s : σ) (acts : List α) :
    Run (fun s a o s' => f s a = (o, s')) s (trace f s acts).1 (trace f s acts).2 := by
  induction acts generalizing s with
  | nil => exact .nil
  | cons a acts ih => exact .cons rfl (ih (f s a).2)

end Lib
