/-
This file opens computations that may fail. One that succeeded is a chain of steps that all
succeeded, and a list of them succeeded element by element. A check finds one value where its
condition holds, and checks one after another find theirs where all conditions hold. Two
computations that take corresponding steps end alike.
-/

import Mathlib

namespace Stagecraft

namespace Outcome

variable {ε β γ : Type}

theorem bind_eq_ok {first : Except ε β} {next : β → Except ε γ} {result : γ} :
    (first >>= next) = .ok result ↔ ∃ value, first = .ok value ∧ next value = .ok result := by
  cases first with
  | error fault => simp [bind, Except.bind]
  | ok value => simp [bind, Except.bind]

@[simp] theorem pure_eq_ok {value result : β} :
    (pure value : Except ε β) = .ok result ↔ value = result := by
  simp [pure, Except.pure]

/-- What is seen of a computation is seen of the value that it succeeded with. -/
theorem eq_of_seen {outcome : Except ε β} {value : β} (succeeded : outcome = .ok value)
    {see : β → γ} {seen : γ} (sees : outcome.toOption.map see = some seen) : see value = seen := by
  rw [succeeded] at sees
  exact Option.some.inj sees

@[simp] theorem throw_ne_ok {fault : ε} {result : β} :
    (throw fault : Except ε β) ≠ .ok result := by
  simp [throw, throwThe, MonadExceptOf.throw]

theorem mapError_eq_ok {δ : Type} {rename : ε → δ} {outcome : Except ε β} {result : β} :
    outcome.mapError rename = .ok result ↔ outcome = .ok result := by
  cases outcome <;> simp [Except.mapError]

theorem mapM_eq_ok {step : β → Except ε γ} {values : List β} {results : List γ} :
    values.mapM step = .ok results ↔
      List.Forall₂ (fun value result => step value = .ok result) values results := by
  induction values generalizing results with
  | nil => rw [List.mapM_nil, pure_eq_ok, List.forall₂_nil_left_iff, eq_comm]
  | cons value rest inductionHypothesis =>
    rw [List.mapM_cons, bind_eq_ok]
    constructor
    · rintro ⟨head, stepped, continued⟩
      obtain ⟨tail, walked, built⟩ := bind_eq_ok.mp continued
      rw [← pure_eq_ok.mp built]
      exact .cons stepped (inductionHypothesis.mp walked)
    · rintro (_ | ⟨stepped, walked⟩)
      exact ⟨_, stepped, bind_eq_ok.mpr ⟨_, inductionHypothesis.mpr walked, rfl⟩⟩

theorem exists_mapM (step : β → Except ε γ) (values : List β)
    (each : ∀ value ∈ values, ∃ result, step value = .ok result) :
    ∃ results, values.mapM step = .ok results := by
  induction values with
  | nil => exact ⟨[], rfl⟩
  | cons value rest inductionHypothesis =>
    obtain ⟨⟨head, stepped⟩, later⟩ := List.forall_mem_cons.mp each
    obtain ⟨tail, walked⟩ := inductionHypothesis later
    exact ⟨head :: tail, mapM_eq_ok.mpr (.cons stepped (mapM_eq_ok.mp walked))⟩

/-! ### Success -/

/-- The computation finds a value. -/
def Succeeds (outcome : Except ε β) : Prop :=
  ∃ value, outcome = .ok value

@[simp] theorem succeeds_ok {value : β} : Succeeds (.ok value : Except ε β) :=
  ⟨value, rfl⟩

@[simp] theorem succeeds_pure {value : β} : Succeeds (pure value : Except ε β) :=
  ⟨value, rfl⟩

@[simp] theorem not_succeeds_error {fault : ε} : ¬Succeeds (.error fault : Except ε β) := by
  simp [Succeeds]

@[simp] theorem not_succeeds_throw {fault : ε} : ¬Succeeds (throw fault : Except ε β) := by
  simp [Succeeds]

theorem succeeds_mapError {δ : Type} {rename : ε → δ} {outcome : Except ε β} :
    Succeeds (outcome.mapError rename) ↔ Succeeds outcome :=
  exists_congr fun _ => mapError_eq_ok

/-- Where what follows succeeds alike for every value, the first step is one condition more. -/
theorem succeeds_bind {first : Except ε β} {next : β → Except ε γ} {further : Prop}
    (alike : ∀ value, first = .ok value → (Succeeds (next value) ↔ further)) :
    Succeeds (first >>= next) ↔ Succeeds first ∧ further := by
  cases first with
  | error fault => simp [Succeeds, bind, Except.bind]
  | ok value => exact (alike value rfl).trans (by simp)

/-- Building a value from what was found cannot fail. -/
theorem succeeds_bind_pure {first : Except ε β} {build : β → γ} :
    Succeeds (first >>= fun value => pure (build value)) ↔ Succeeds first :=
  (succeeds_bind fun _ _ => iff_true_intro succeeds_pure).trans (and_iff_left trivial)

/-- The computation finds this value under this condition, and otherwise none. -/
def Checks (outcome : Except ε β) (condition : Prop) (value : β) : Prop :=
  ∀ found, outcome = .ok found ↔ condition ∧ value = found

theorem checks_ite {condition : Prop} [Decidable condition] {value : β} {fault : ε} :
    Checks (if condition then .ok value else .error fault) condition value := by
  intro found
  split <;> simp_all

theorem checks_ite_not {condition : Prop} [Decidable condition] {value : β} {fault : ε} :
    Checks (if condition then .error fault else .ok value) (¬condition) value := by
  intro found
  split <;> simp_all

namespace Checks

variable {first : Except ε β} {condition : Prop} {value : β} (checks : Checks first condition value)

include checks

theorem succeeds : Succeeds first ↔ condition := by
  simp only [Succeeds, checks _, exists_and_left, exists_eq', and_true]

theorem bind {next : β → Except ε γ} {further : Prop} {result : γ}
    (later : Checks (next value) further result) :
    Checks (first >>= next) (condition ∧ further) result := by
  intro found
  rw [bind_eq_ok, and_assoc, ← later found]
  simp only [checks _, and_assoc, exists_and_left, exists_eq_left']

theorem succeeds_bind {next : β → Except ε γ} :
    Succeeds (first >>= next) ↔ condition ∧ Succeeds (next value) := by
  simp only [Succeeds, bind_eq_ok, checks _, and_assoc]
  constructor
  · rintro ⟨result, _, holds, rfl, made⟩
    exact ⟨holds, result, made⟩
  · rintro ⟨holds, result, made⟩
    exact ⟨result, value, holds, rfl, made⟩

end Checks

/-! ### Two runs -/

/-- Two computations end alike: both find a value, and the values are related, or both fail with the
same fault. -/
inductive Relates (related : β → γ → Prop) : Except ε β → Except ε γ → Prop
  | ok {value : β} {other : γ} : related value other → Relates related (.ok value) (.ok other)
  | error (fault : ε) : Relates related (.error fault) (.error fault)

namespace Relates

variable {β' γ' : Type} {related : β → γ → Prop} {related' : β' → γ' → Prop}

theorem bind {first : Except ε β} {second : Except ε γ} {next : β → Except ε β'}
    {next' : γ → Except ε γ'} (alike : Relates related first second)
    (further : ∀ value other, related value other → Relates related' (next value) (next' other)) :
    Relates related' (first >>= next) (second >>= next') := by
  cases alike with
  | ok holds => exact further _ _ holds
  | error fault => exact .error fault

/-- A computation that is the same in both runs. -/
theorem bind_self {first : Except ε β} {next : β → Except ε β'} {next' : β → Except ε γ'}
    (further : ∀ value, Relates related' (next value) (next' value)) :
    Relates related' (first >>= next) (first >>= next') := by
  cases first with
  | ok value => exact further value
  | error fault => exact .error fault

theorem mapError {δ : Type} {first : Except ε β} {second : Except ε γ}
    (alike : Relates related first second) (rename : ε → δ) :
    Relates related (first.mapError rename) (second.mapError rename) := by
  cases alike with
  | ok holds => exact .ok holds
  | error fault => exact .error (rename fault)

/-- Runs that end alike in values with the same image have the same image. -/
theorem map_eq {δ : Type} {image : β → δ} {image' : γ → δ} {first : Except ε β}
    {second : Except ε γ}
    (alike : Relates (fun value other => image value = image' other) first second) :
    first.map image = second.map image' := by
  cases alike with
  | ok same => exact congrArg Except.ok same
  | error fault => rfl

end Relates

end Outcome

end Stagecraft
