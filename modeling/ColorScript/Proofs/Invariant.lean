import ColorScript.Machine.Visit
import ColorScript.Proofs.Success

/-! Invariants of single runs: what holds of a state before a step holds after it, whether the
step succeeds or fails, and only some errors can arise. The rules here build such steps, for the
machine and for sessions. -/
namespace ColorScript

/-- An outcome with a state, and a value or an error, as they should be. -/
def Ends {ε σ α : Type} (holds : σ → Prop) (values : α → Prop) (errors : ε → Prop) :
    EStateM.Result ε σ α → Prop
  | .ok value after => holds after ∧ values value
  | .error error after => holds after ∧ errors error

/-- Every run of a step from a state with an invariant ends in one with it. -/
def Keeps {ε σ α : Type} (holds : σ → Prop) (values : α → Prop) (errors : ε → Prop)
    (step : EStateM ε σ α) : Prop :=
  ∀ before, holds before → Ends holds values errors (step before)

theorem Ends.final {ε σ α : Type} {holds : σ → Prop} {values : α → Prop} {errors : ε → Prop}
    {result : EStateM.Result ε σ α} (ended : Ends holds values errors result) :
    holds (final result) := by
  cases result with
  | ok value after => exact ended.1
  | error error after => exact ended.1

/-- A step and what follows it, where more is known of the state between them. -/
theorem Ends.bind {ε σ α β : Type} {holds between : σ → Prop} {values : α → Prop}
    {results : β → Prop} {errors : ε → Prop} {first : EStateM ε σ α} {next : α → EStateM ε σ β}
    {before : σ} (head : Ends between values errors (first before))
    (implied : ∀ middle, between middle → holds middle)
    (tail : ∀ value middle, between middle → values value →
      Ends holds results errors (next value middle)) :
    Ends holds results errors ((first >>= next) before) := by
  change Ends holds results errors (EStateM.bind first next before)
  unfold EStateM.bind
  cases done : first before with
  | ok value middle =>
    rw [done] at head
    exact tail value middle head.1 head.2
  | error error middle =>
    rw [done] at head
    exact ⟨implied middle head.1,head.2⟩

namespace Keeps

variable {ε σ α β : Type} {holds : σ → Prop} {values : α → Prop} {results : β → Prop}
  {errors : ε → Prop}

theorem pure {value : α} (fine : values value) :
    Keeps holds values errors (Pure.pure value : EStateM ε σ α) :=
  fun _ held => ⟨held,fine⟩

theorem throw {error : ε} (fine : errors error) :
    Keeps holds values errors (MonadExcept.throw error : EStateM ε σ α) :=
  fun _ held => ⟨held,fine⟩

theorem get : Keeps holds holds errors (MonadState.get : EStateM ε σ σ) :=
  fun _ held => ⟨held,held⟩

theorem modify {change : σ → σ} (kept : ∀ before, holds before → holds (change before)) :
    Keeps holds (fun _ => True) errors (modify change : EStateM ε σ Unit) :=
  fun before held => ⟨kept before held,trivial⟩

theorem bind {first : EStateM ε σ α} {next : α → EStateM ε σ β}
    (head : Keeps holds values errors first)
    (tail : ∀ value, values value → Keeps holds results errors (next value)) :
    Keeps holds results errors (first >>= next) :=
  fun before held => (head before held).bind (fun _ => id) fun value middle held fine =>
    tail value fine middle held

theorem weaken {others : α → Prop} {first : EStateM ε σ α} (head : Keeps holds values errors first)
    (implied : ∀ value, values value → others value) : Keeps holds others errors first := by
  intro before held
  have ended := head before held
  cases done : first before with
  | ok value middle =>
    rw [done] at ended
    exact ⟨ended.1,implied value ended.2⟩
  | error error middle =>
    rw [done] at ended
    exact ended

theorem ite {condition : Prop} [Decidable condition] {first second : EStateM ε σ α}
    (holding : condition → Keeps holds values errors first)
    (failing : ¬ condition → Keeps holds values errors second) :
    Keeps holds values errors (if condition then first else second) := by
  split
  next h => exact holding h
  next h => exact failing h

theorem check {condition : Bool} {error : ε} (fails : condition = false → errors error) :
    Keeps holds (fun _ => condition = true) errors
      (if condition then Pure.pure () else MonadExcept.throw error : EStateM ε σ Unit) := by
  cases condition with
  | true => exact Keeps.pure rfl
  | false => exact Keeps.throw (fails rfl)

end Keeps

theorem Keeps.success {ε σ α : Type} {holds : σ → Prop} {values : α → Prop} {errors : ε → Prop}
    {step : EStateM ε σ α} (keeps : Keeps holds values errors step) {before after : σ} {value : α}
    (held : holds before) (ok : step before = .ok value after) : holds after ∧ values value := by
  have ended := keeps before held
  rw [ok] at ended
  exact ended

theorem Keeps.failure {ε σ α : Type} {holds : σ → Prop} {values : α → Prop} {errors : ε → Prop}
    {step : EStateM ε σ α} (keeps : Keeps holds values errors step) {before after : σ} {error : ε}
    (held : holds before) (failed : step before = .error error after) :
    holds after ∧ errors error := by
  have ended := keeps before held
  rw [failed] at ended
  exact ended

end ColorScript
