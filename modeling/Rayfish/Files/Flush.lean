import Rayfish.Lib.Run

/-!
# Flushing a peer's outbox

The calls of `flush_outbox_for` for one peer (`file_service.rs`). A call that finds the flush
taken marks it for another pass and ends; the one that holds it makes passes until it finds no
mark. Each operation on the map of marks is a step of its own, and a pass reads the outbox when
it starts.
-/

namespace Rayfish

open Lib

/-- Where a call is that holds the peer's flush. -/
inductive FlushPoint where
  | starting
  | passing
  deriving DecidableEq

structure FlushState where
  /-- The offers that are queued and not delivered. -/
  outbox : List Nat
  /-- The entry of `FlushMarks`: `none` when nobody flushes, else whether to go round again. -/
  mark : Option Bool
  /-- The calls that hold a `FlushGuard`. -/
  guards : List (Nat × FlushPoint)

inductive FlushAct where
  | queue (offer : Nat)
  /-- An offer is delivered, declined or withdrawn. -/
  | settle (offer : Nat)
  /-- A new call, up to `FlushGuard::acquire`. -/
  | trigger (call : Nat)
  /-- `flush_pass` reads the outbox. -/
  | pass (call : Nat)
  /-- `flush_pass` ends and `release_unless_rerun` decides. -/
  | release (call : Nat)

/-- One step, with the offers it reads. -/
def FlushAct.run (s : FlushState) : FlushAct → Option (List Nat × FlushState)
  | .queue offer => some ([], { s with outbox := s.outbox ++ [offer] })
  | .settle offer => some ([], { s with outbox := s.outbox.filter (· ≠ offer) })
  | .trigger call =>
    match s.mark with
    | some _ => some ([], { s with mark := some true })
    | none => some ([], { s with mark := some false, guards := (call, .starting) :: s.guards })
  | .pass call =>
    if (call, .starting) ∈ s.guards then
      some (s.outbox, { s with guards := (call, .passing) :: s.guards.erase (call, .starting) })
    else none
  | .release call =>
    if (call, .passing) ∈ s.guards then
      let others := s.guards.erase (call, .passing)
      if s.mark = some true then
        some ([], { s with mark := some false, guards := (call, .starting) :: others })
      else some ([], { s with mark := none, guards := others })
    else none

def flushStep : StepRel FlushState FlushAct (List Nat) := fun s a out s' => a.run s = some (out, s')

/-- The entry is there exactly while one call holds the flush. -/
inductive FlushState.Held : FlushState → Prop
  | free (outbox : List Nat) : Held ⟨outbox, none, []⟩
  | taken (outbox : List Nat) (again : Bool) (call : Nat) (point : FlushPoint) :
      Held ⟨outbox, some again, [(call, point)]⟩

/-- A call is about to start a pass, or to go round again when its pass ends. -/
def FlushState.Due (s : FlushState) : Prop :=
  ∃ call, (call, .starting) ∈ s.guards ∨ (call, .passing) ∈ s.guards ∧ s.mark = some true

variable {s s' s₀ : FlushState} {a : FlushAct} {out : List Nat} {call offer : Nat}

theorem FlushState.Held.step (held : s.Held) (step : flushStep s a out s') : s'.Held := by
  cases held <;> cases a <;> simp [flushStep, FlushAct.run] at step <;> grind [FlushState.Held]

theorem FlushState.Due.of_trigger (held : s.Held) (step : flushStep s (.trigger call) out s') :
    s'.Due := by
  cases held with
  | free outbox =>
    cases step
    exact ⟨call, .inl List.mem_cons_self⟩
  | taken outbox again holder point =>
    cases step
    exact ⟨holder, by cases point <;> simp⟩

/-- A pass that is due stays due until it starts. -/
theorem FlushState.Due.step (due : s.Due) (held : s.Held) (step : flushStep s a out s')
    (waits : ∀ call, a ≠ .pass call) : s'.Due := by
  cases a with
  | queue offer | settle offer =>
    cases step
    exact due
  | trigger call => exact .of_trigger held step
  | pass call => exact absurd rfl (waits call)
  | release call =>
    obtain ⟨holder, due⟩ := due
    cases held <;> simp [flushStep, FlushAct.run] at step due
    -- the pass that ends is the marked one
    refine ⟨call, .inl ?_⟩
    grind

/-- Only `settle` takes an offer out of the outbox. -/
theorem flushStep_outbox (step : flushStep s a out s') (queued : offer ∈ s.outbox)
    (waits : a ≠ .settle offer) : offer ∈ s'.outbox := by
  cases a <;> simp only [flushStep, FlushAct.run] at step <;> grind

abbrev FlushEntry := Entry FlushState FlushAct (List Nat)

/-- Every offer of `queued` is in `read`, or was settled in between. -/
def Carried (queued : List Nat) (between : List FlushEntry) (read : List Nat) : Prop :=
  ∀ offer ∈ queued, offer ∈ read ∨ ∃ e ∈ between, e.act = .settle offer

theorem Carried.snoc (carried : Carried queued between s.outbox) (step : flushStep s a out s') :
    Carried queued (between ++ [⟨s, a, out, s'⟩]) s'.outbox := by
  intro offer listed
  rcases carried offer listed with read | ⟨e, member, settles⟩
  · by_cases settles : a = .settle offer
    · exact .inr ⟨_, mem_snoc, settles⟩
    · exact .inl (flushStep_outbox step read settles)
  · exact .inr ⟨e, List.mem_append_left _ member, settles⟩

end Rayfish
