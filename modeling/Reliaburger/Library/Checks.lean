import Mathlib

/-! Sequences of checks that stop at the first refusal, and what a passed sequence tells. -/

namespace Checks

variable {Refusal Answer Next : Type}

/-- Refuse if a condition holds. -/
def refuseIf (condition : Prop) [Decidable condition] (refusal : Refusal)
    : Except Refusal Unit :=
  if condition then .error refusal else .ok ()

/-- Check entries in turn, up to the first refusal. -/
def checkAll {Entry : Type} (check : Entry → Except Refusal Unit)
    : List Entry → Except Refusal Unit
  | [] => .ok ()
  | entry :: rest =>
    match check entry with
    | .ok () => checkAll check rest
    | .error refused => .error refused

variable {refusal : Refusal} {check : Except Refusal Answer} {answer result : Answer}
  {post : Answer → Prop}

@[simp] theorem refuseIf_eq_ok {condition : Prop} [Decidable condition] {answer : Unit}
    : refuseIf condition refusal = .ok answer ↔ ¬ condition := by
  by_cases holds : condition <;> simp [refuseIf, holds]

/-- A sequence passes iff its first check does and the rest, with that answer. -/
@[simp] theorem bind_eq_ok {next : Answer → Except Refusal Next} {result : Next}
    : (check >>= next) = .ok result ↔ ∃ answer, check = .ok answer ∧ next answer = .ok result := by
  cases check <;> simp [bind, Except.bind]

@[simp] theorem pure_eq_ok
    : (pure answer : Except Refusal Answer) = .ok result ↔ answer = result := by
  simp [pure, Except.pure]

@[simp] theorem throw_eq_ok : (throw refusal : Except Refusal Answer) = .ok result ↔ False := by
  simp [throw, throwThe, MonadExceptOf.throw]

/-- All checks pass iff each does, by induction on the entries. -/
@[simp] theorem checkAll_eq_ok {Entry : Type} {check : Entry → Except Refusal Unit}
    {entries : List Entry} {answer : Unit}
    : checkAll check entries = .ok answer ↔ ∀ entry ∈ entries, check entry = .ok () := by
  induction entries with
  | nil => simp [checkAll]
  | cons entry rest ih =>
    cases checked : check entry with
    | ok _ => simp [checkAll, checked, ih]
    | error refused => simp [checkAll, checked]

/-- Renaming refusals lets the same checks pass. -/
@[simp] theorem mapError_eq_ok {Other : Type} {rename : Refusal → Other}
    : check.mapError rename = .ok result ↔ check = .ok result := by
  cases check <;> simp [Except.mapError]

-- What every accepted outcome satisfies

/-- Whatever a sequence of checks answers satisfies `post`. -/
def Ensures (result : Except Refusal Answer) (post : Answer → Prop) : Prop :=
  ∀ answer, result = .ok answer → post answer

theorem ensures_ok (holds : post answer)
    : Ensures (.ok answer : Except Refusal Answer) post := by
  rintro _ ⟨⟩
  exact holds

theorem ensures_pure (holds : post answer)
    : Ensures (pure answer : Except Refusal Answer) post :=
  ensures_ok holds

theorem ensures_error : Ensures (.error refusal : Except Refusal Answer) post := by
  rintro _ ⟨⟩

theorem ensures_throw : Ensures (throw refusal : Except Refusal Answer) post :=
  ensures_error

/-- What the rest ensures after every first answer, the sequence ensures. -/
theorem ensures_bind {next : Answer → Except Refusal Next} {post : Next → Prop}
    (rest : ∀ answer, check = .ok answer → Ensures (next answer) post)
    : Ensures (check >>= next) post := by
  intro result done
  obtain ⟨answer, checked, after⟩ := bind_eq_ok.mp done
  exact rest answer checked result after

end Checks
