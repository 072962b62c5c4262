import ColorScript.Checked

/-! Steps that read and change a state, may fail, and may fault on the way. A step that fails leaves a
state; one that faults leaves nothing. -/
namespace ColorScript

/-- A step that ends as a plain one does, unless it faults. -/
def Guarded (ε σ α : Type) : Type := σ → Checked (EStateM.Result ε σ α)

namespace Guarded

variable {ε σ α β : Type}

instance : Monad (Guarded ε σ) where
  pure value := fun state => .ok (.ok value state)
  bind step next := fun before => do
    match ← step before with
    | .ok value middle => next value middle
    | .error error after => pure (.error error after)

instance : MonadStateOf σ (Guarded ε σ) where
  get := fun state => .ok (.ok state state)
  set state := fun _ => .ok (.ok () state)
  modifyGet change := fun state => .ok (.ok (change state).1 (change state).2)

instance : MonadLift (EStateM ε σ) (Guarded ε σ) := ⟨fun step state => .ok (step state)⟩

instance : MonadLift Checked (Guarded ε σ) := ⟨fun value state => do pure (.ok (← value) state)⟩

def onward {τ : Type} (again : τ → EStateM ε σ α) : Checked.Round τ α → EStateM ε σ α
  | .done result => pure result
  | .again next => again next

/-- A guarded step does in a state what a plain step does, and does not fault. -/
def Agrees (guarded : Guarded ε σ α) (plain : EStateM ε σ α) (before : σ) : Prop :=
  guarded before = .ok (plain before)

namespace Agrees

variable {guarded : Guarded ε σ α} {plain : EStateM ε σ α} {before : σ}

theorem lift (plain : EStateM ε σ α) (before : σ) : Agrees (liftM plain : Guarded ε σ α) plain before := rfl

theorem pure (value : α) (before : σ) : Agrees (Pure.pure value : Guarded ε σ α) (Pure.pure value) before := rfl

theorem get (before : σ) : Agrees (MonadState.get : Guarded ε σ σ) MonadState.get before := rfl

theorem modify (change : σ → σ) (before : σ) :
    Agrees (modify change : Guarded ε σ Unit) (modify change) before := rfl

theorem bind {next : α → Guarded ε σ β} {next' : α → EStateM ε σ β} (head : Agrees guarded plain before)
    (tail : ∀ value middle, plain before = .ok value middle → Agrees (next value) (next' value) middle) :
    Agrees (guarded >>= next) (plain >>= next') before := by
  change ((guarded before).bind fun ran => _) = _
  rw [show guarded before = .ok (plain before) from head]
  change (match plain before with
    | .ok value middle => next value middle
    | .error error after => .ok (.error error after)) = .ok (EStateM.bind plain next' before)
  unfold EStateM.bind
  cases ran : plain before with
  | ok value middle => exact tail value middle ran
  | error error after => rfl

theorem bind_map {γ : Type} {step : Guarded ε σ γ} {view : α → γ} {next : γ → Guarded ε σ β}
    {next' : α → EStateM ε σ β} (head : Agrees step (do return view (← plain)) before)
    (tail : ∀ value middle, plain before = .ok value middle →
      Agrees (next (view value)) (next' value) middle) :
    Agrees (step >>= next) (plain >>= next') before := by
  change step before = .ok (EStateM.bind plain (fun value => Pure.pure (view value)) before) at head
  change ((step before).bind fun ran => _) = .ok (EStateM.bind plain next' before)
  unfold EStateM.bind at head ⊢
  cases ran : plain before with
  | ok value middle =>
    rw [ran] at head
    rw [head]
    exact tail value middle ran
  | error error after =>
    rw [ran] at head
    rw [head]
    rfl

theorem followed {next : α → Guarded ε σ β} {next' : α → EStateM ε σ β}
    (tail : ∀ value middle, Agrees (next value) (next' value) middle) :
    Agrees ((liftM plain : Guarded ε σ α) >>= next) (plain >>= next') before :=
  (lift plain before).bind fun value middle _ => tail value middle

theorem read {next : σ → Guarded ε σ β} {plain : EStateM ε σ β} (tail : Agrees (next before) plain before) :
    Agrees ((MonadState.get : Guarded ε σ σ) >>= next) plain before := tail

theorem computed {value : Checked α} {result : α} {next : α → Guarded ε σ β} {plain : EStateM ε σ β}
    (computes : value = .ok result) (tail : Agrees (next result) plain before) :
    Agrees ((liftM value : Guarded ε σ α) >>= next) plain before := by
  subst computes
  exact tail

theorem ite {condition : Prop} [Decidable condition] {first second : Guarded ε σ α}
    {first' second' : EStateM ε σ α} (holds : condition → Agrees first first' before)
    (fails : ¬ condition → Agrees second second' before) :
    Agrees (if condition then first else second) (if condition then first' else second') before := by
  split
  next h => exact holds h
  next h => exact fails h

theorem loop {τ : Type} {left : τ → Nat} {body : τ → Guarded ε σ (Checked.Round τ α)} (holds : τ → Prop)
    (plain : τ → EStateM ε σ α)
    (round : ∀ place, holds place → ∃ step : EStateM ε σ (Checked.Round τ α),
      (∀ before, Agrees (body place) step before) ∧
      (∀ before next middle, step before = .ok (.again next) middle → left next < left place ∧ holds next) ∧
      plain place = step >>= onward plain)
    (place : τ) (held : holds place) (before : σ) : Agrees (Checked.loop left body place) (plain place) before := by
  induction closer : left place using Nat.strongRecOn generalizing place before with
  | ind n ih =>
    obtain ⟨step,agrees,closing,unfolded⟩ := round place held
    rw [Checked.loop,unfolded]
    refine (agrees before).bind fun ended middle ran => ?_
    cases ended with
    | done result => exact Agrees.pure result middle
    | again next =>
      obtain ⟨nearer,held⟩ := closing before next middle ran
      dsimp only
      rw [if_pos nearer]
      exact ih _ (closer ▸ nearer) next held middle rfl

end Agrees

end Guarded

end ColorScript
