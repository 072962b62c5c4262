import ColorScript.Proofs.Success

/-! Two runs in lock step: whenever the first one succeeds, so does the second, and what
relates their states before relates them after. The rules here build such pairs step by step,
for the machine and for sessions. -/
namespace ColorScript

/-- Each success of `first` is matched by one of `second` from every related state, with
related values, and the states after are related again. -/
def Lockstep {ε σ α β : Type} (states : σ → σ → Prop) (values : α → β → Prop)
    (first : EStateM ε σ α) (second : EStateM ε σ β) : Prop :=
  ∀ before before' value after, states before before' → first before = .ok value after →
    ∃ value' after', second before' = .ok value' after' ∧ values value value' ∧
      states after after'

namespace Lockstep

variable {ε σ α β γ δ : Type} {states : σ → σ → Prop} {values : α → β → Prop}
  {results : γ → δ → Prop}

theorem pure {value : α} {value' : β} (related : values value value') :
    Lockstep states values (Pure.pure value : EStateM ε σ α) (Pure.pure value') := by
  intro before before' result after alike ok
  cases ok
  exact ⟨value',before',rfl,related,alike⟩

theorem throw (error : ε) (second : EStateM ε σ β) :
    Lockstep states values (MonadExcept.throw error : EStateM ε σ α) second := by
  intro before before' result after alike ok
  cases ok

theorem get : Lockstep states states (MonadState.get : EStateM ε σ σ) MonadState.get := by
  intro before before' result after alike ok
  cases ok
  exact ⟨before',before',rfl,alike,alike⟩

theorem modify (change change' : σ → σ)
    (kept : ∀ before before', states before before' → states (change before) (change' before')) :
    Lockstep states Eq (modify change : EStateM ε σ Unit) (modify change') := by
  intro before before' result after alike ok
  cases ok
  exact ⟨(),change' before',rfl,rfl,kept before before' alike⟩

theorem bind {first : EStateM ε σ α} {second : EStateM ε σ β} {next : α → EStateM ε σ γ}
    {next' : β → EStateM ε σ δ} (head : Lockstep states values first second)
    (tail : ∀ value value', values value value' →
      Lockstep states results (next value) (next' value')) :
    Lockstep states results (first >>= next) (second >>= next') := by
  intro before before' result after alike ok
  obtain ⟨value,middle,done,rest⟩ := bind_success first next before after result ok
  obtain ⟨value',middle',done',related,between⟩ := head before before' value middle alike done
  rw [bind_of_success done']
  exact tail value value' related middle middle' result after between rest

/-- A step with the same value on both sides, and what follows it. -/
theorem seq {first second : EStateM ε σ α} {next : α → EStateM ε σ γ} {next' : α → EStateM ε σ δ}
    (head : Lockstep states Eq first second)
    (tail : ∀ value, Lockstep states results (next value) (next' value)) :
    Lockstep states results (first >>= next) (second >>= next') := by
  refine head.bind ?_
  rintro value _ rfl
  exact tail value

theorem weaken {others : α → β → Prop} {first : EStateM ε σ α} {second : EStateM ε σ β}
    (head : Lockstep states values first second)
    (implied : ∀ value value', values value value' → others value value') :
    Lockstep states others first second := by
  intro before before' value after alike ok
  obtain ⟨value',after',done,related,alike⟩ := head before before' value after alike ok
  exact ⟨value',after',done,implied value value' related,alike⟩

theorem ite {condition : Prop} [Decidable condition] {first first' : EStateM ε σ α}
    {second second' : EStateM ε σ β} (holds : condition → Lockstep states values first second)
    (fails : ¬ condition → Lockstep states values first' second') :
    Lockstep states values (if condition then first else first')
      (if condition then second else second') := by
  split
  next h => exact holds h
  next h => exact fails h

theorem check {condition condition' : Bool} (error error' : ε)
    (implied : condition = true → condition' = true) :
    Lockstep states Eq (if condition then Pure.pure () else MonadExcept.throw error : EStateM ε σ Unit)
      (if condition' then Pure.pure () else MonadExcept.throw error') := by
  cases condition with
  | false => exact Lockstep.throw error _
  | true =>
    rw [implied rfl]
    exact Lockstep.pure rfl

end Lockstep

end ColorScript
