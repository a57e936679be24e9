import Mathlib

/-! Runs of a step function over a list of inputs, and what holds along them when every input
meets a condition on the state it is applied to. Then sequences in which every item is related to
the one before, and steps that come to rest.
-/

namespace Runs

variable {State Input : Type} {step : State → Input → State} {state : State}

/-- The state after some inputs. -/
def run (step : State → Input → State) (state : State) (inputs : List Input) : State :=
  inputs.foldl step state

/-- Every input of a run meets a condition in the state that it finds. -/
def Meets (step : State → Input → State) (condition : State → Input → Prop)
    : State → List Input → Prop
  | _, [] => True
  | state, input :: rest => condition state input ∧ Meets step condition (step state input) rest

@[simp] theorem run_nil : run step state [] = state := rfl

@[simp] theorem run_cons (input : Input) (rest : List Input)
    : run step state (input :: rest) = run step (step state input) rest := rfl

@[simp] theorem run_append (first second : List Input)
    : run step state (first ++ second) = run step (run step state first) second := by
  simp [run]

variable {condition : State → Input → Prop} {inputs : List Input}

/-- A run meets a condition iff its two parts do, by induction on the first. -/
@[simp] theorem meets_append (first second : List Input)
    : Meets step condition state (first ++ second)
      ↔ Meets step condition state first ∧ Meets step condition (run step state first) second := by
  induction first generalizing state with
  | nil => simp [Meets]
  | cons input rest ih => simp [Meets, ih, and_assoc]

theorem meets_of_forall {condition : Input → Prop} (all : ∀ input ∈ inputs, condition input)
    : Meets step (fun _ input => condition input) state inputs := by
  induction inputs generalizing state with
  | nil => trivial
  | cons input rest ih =>
    exact ⟨all input (by simp), ih fun later listed => all later (by simp [listed])⟩

theorem Meets.and {first second : State → Input → Prop} (meets : Meets step first state inputs)
    (others : Meets step second state inputs)
    : Meets step (fun state input => first state input ∧ second state input) state inputs := by
  induction inputs generalizing state with
  | nil => trivial
  | cons input rest ih => exact ⟨⟨meets.1, others.1⟩, ih meets.2 others.2⟩

/-- What one step keeps, a whole run keeps. -/
theorem Meets.invariant (Holds : State → Prop)
    (kept : ∀ state input, Holds state → condition state input → Holds (step state input))
    (meets : Meets step condition state inputs) (start : Holds state)
    : Holds (run step state inputs) := by
  induction inputs generalizing state with
  | nil => exact start
  | cons input rest ih => exact ih meets.2 (kept state input start meets.1)

/-- What every step keeps, every run keeps. -/
theorem run_invariant {Holds : State → Prop}
    (kept : ∀ state input, Holds state → Holds (step state input)) {inputs : List Input}
    (start : Holds state)
    : Holds (run step state inputs) := by
  induction inputs generalizing state with
  | nil => exact start
  | cons input rest ih => exact ih (kept state input start)

-- What a run hands out

/-- What a run shows to an observer of its steps, in order. -/
def outputs {Output : Type} (step : State → Input → State)
    (observe : State → Input → Option Output)
    : State → List Input → List Output
  | _, [] => []
  | state, input :: rest =>
    (observe state input).toList ++ outputs step observe (step state input) rest

/-- Numbers taken from a counter that never falls, each below what the counter then is, rise along
the run. -/
theorem Meets.outputs_increase {observe : State → Input → Option Nat} (level : State → Nat)
    (rises : ∀ state input, condition state input → level state ≤ level (step state input))
    (taken : ∀ state input number, condition state input → observe state input = some number
        → level state ≤ number ∧ number < level (step state input))
    (meets : Meets step condition state inputs)
    : (outputs step observe state inputs).Pairwise (· < ·)
      ∧ ∀ number ∈ outputs step observe state inputs, level state ≤ number := by
  induction inputs generalizing state with
  | nil => simp [outputs]
  | cons input rest ih =>
    obtain ⟨increase, above⟩ := ih meets.2
    have risen := rises state input meets.1
    cases observed : observe state input with
    | none =>
      simp only [outputs, observed, Option.toList_none, List.nil_append]
      exact ⟨increase, fun number listed => risen.trans (above number listed)⟩
    | some first =>
      obtain ⟨low, below⟩ := taken state input first meets.1 observed
      simp only [outputs, observed, Option.toList_some, List.singleton_append,
        List.pairwise_cons, List.mem_cons, forall_eq_or_imp]
      exact ⟨⟨fun number listed => below.trans_le (above number listed), increase⟩, low,
        fun number listed => risen.trans (above number listed)⟩

end Runs

namespace Histories

variable {Item : Type} {related : Item → Item → Prop} {items : List Item}

theorem related_of_get (chain : items.IsChain related) {index : Nat} {before after : Item}
    (atIndex : items[index]? = some before) (atNext : items[index + 1]? = some after)
    : related before after := by
  obtain ⟨_, rfl⟩ := List.getElem?_eq_some_iff.mp atIndex
  obtain ⟨bound, rfl⟩ := List.getElem?_eq_some_iff.mp atNext
  exact List.isChain_iff_getElem.mp chain index bound

/-- What every step from one index to another keeps holds at the other if it holds at the one. -/
theorem invariant (Holds : Item → Prop) {start finish : Nat} (within : start ≤ finish)
    (kept : ∀ index before after,
        start ≤ index
        → index < finish
        → items[index]? = some before
        → items[index + 1]? = some after
        → Holds before
        → Holds after)
    {first last : Item} (atStart : items[start]? = some first) (holds : Holds first)
    (atFinish : items[finish]? = some last)
    : Holds last := by
  induction within generalizing last with
  | refl =>
    rw [atStart] at atFinish
    exact Option.some.inj atFinish ▸ holds
  | @step index within ih =>
    obtain ⟨_, _⟩ := List.getElem?_eq_some_iff.mp atFinish
    have present : items[index]? = some items[index] := List.getElem?_eq_getElem _
    have before : Holds items[index] :=
      ih (fun earlier before after lower upper => kept earlier before after lower (by omega))
        present
    exact kept index _ last within (by simp) present atFinish before

end Histories

namespace Settling

variable {State Measure : Type} [Preorder Measure] [WellFoundedLT Measure] {step : State → State}

/-- What a step keeps, any number of steps keeps. -/
theorem iterate_invariant {Holds : State → Prop}
    (kept : ∀ state, Holds state → Holds (step state)) (count : Nat) {state : State}
    (start : Holds state)
    : Holds (step^[count] state) := by
  induction count generalizing state with
  | zero => exact start
  | succ count ih => exact ih (kept state start)

/-- Along an invariant, a step that rests or lowers the measure rests after finitely many. -/
theorem exists_rest {Holds Rests : State → Prop} (measure : State → Measure)
    (kept : ∀ state, Holds state → Holds (step state))
    (lowers : ∀ state, Holds state → Rests state ∨ measure (step state) < measure state)
    {state : State} (start : Holds state)
    : ∃ count, Rests (step^[count] state) := by
  induction h : measure state using WellFoundedLT.induction generalizing state with
  | ind level ih =>
    subst h
    rcases lowers state start with rests | lower
    · exact ⟨0, rests⟩
    · obtain ⟨count, rests⟩ := ih _ lower (kept state start) rfl
      exact ⟨count + 1, rests⟩

/-- A state the step keeps is kept by every later one. -/
theorem iterate_rest {state : State} {count later : Nat}
    (rest : step (step^[count] state) = step^[count] state) (after : count ≤ later)
    : step^[later] state = step^[count] state := by
  obtain ⟨extra, rfl⟩ := Nat.exists_eq_add_of_le' after
  rw [Function.iterate_add_apply]
  exact Function.iterate_fixed rest extra

/-- A trace whose every step stands still or lowers the measure rests, if from every other state
some later step does not stand still. -/
theorem exists_rest_along {Rests : State → Prop} {trace : Nat → State} (measure : State → Measure)
    (stays : ∀ time, trace (time + 1) = trace time
      ∨ measure (trace (time + 1)) < measure (trace time))
    (moves : ∀ time, Rests (trace time)
      ∨ ∃ later, time ≤ later ∧ (trace later = trace time → trace (later + 1) ≠ trace later))
    : ∃ time, Rests (trace time) := by
  have lowered (time later : Nat) (after : time ≤ later)
      : trace later = trace time ∨ measure (trace later) < measure (trace time) := by
    induction later, after using Nat.le_induction with
    | base => exact .inl rfl
    | succ later _ ih =>
      rcases stays later with still | lower
      · rwa [still]
      · exact .inr (ih.elim (fun same => same ▸ lower) lower.trans)
  suffices every : ∀ time, ∃ later, Rests (trace later) from every 0
  intro time
  induction level : measure (trace time) using WellFoundedLT.induction generalizing time with
  | ind level ih =>
    subst level
    rcases moves time with rests | ⟨later, after, moved⟩
    · exact ⟨time, rests⟩
    rcases lowered time (later + 1) (by omega) with same | lower
    · rcases lowered time later after with still | lower
      · exact absurd (same.trans still.symm) (moved still)
      · exact ih _ lower later rfl
    · exact ih _ lower (later + 1) rfl

end Settling
