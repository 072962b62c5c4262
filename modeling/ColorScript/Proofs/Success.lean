import ColorScript.Session

/-! What a step that succeeds found and what it changed, from the steps that all operations are
made of to the step of one chunk outside of all branches. -/
namespace ColorScript

/-- Whether a step has succeeded in a state as it should be, which a run on fixed inputs can tell. -/
def succeeds {ε σ α : Type} (holds : σ → Bool) : EStateM.Result ε σ α → Bool
  | .ok _ after => holds after
  | .error _ _ => false

theorem exists_of_succeeds {ε σ α : Type} {holds : σ → Bool} {ended : EStateM.Result ε σ α}
    (fine : succeeds holds ended = true) : ∃ value after, ended = .ok value after ∧ holds after = true := by
  cases ended with
  | ok value after => exact ⟨value,after,rfl,fine⟩
  | error error after => cases fine

def failsWith {ε σ α : Type} [DecidableEq ε] (error : ε) : EStateM.Result ε σ α → Bool
  | .ok _ _ => false
  | .error cause _ => cause = error

theorem exists_of_failsWith {ε σ α : Type} [DecidableEq ε] {error : ε} {ended : EStateM.Result ε σ α}
    (failed : failsWith error ended = true) : ∃ after, ended = .error error after := by
  cases ended with
  | ok value after => cases failed
  | error cause after => exact ⟨after,by rw [of_decide_eq_true failed]⟩

theorem bind_success {ε σ α β : Type} (first : EStateM ε σ α) (next : α → EStateM ε σ β)
    (before after : σ) (result : β) (ok : (first >>= next) before = .ok result after) :
    ∃ value middle, first before = .ok value middle ∧ next value middle = .ok result after := by
  change EStateM.bind first next before = .ok result after at ok
  unfold EStateM.bind at ok
  split at ok
  next value middle done => exact ⟨value,middle,done,ok⟩
  next => cases ok

theorem bind_of_success {ε σ α β : Type} {first : EStateM ε σ α} {before middle : σ} {value : α}
    (done : first before = .ok value middle) (next : α → EStateM ε σ β) :
    (first >>= next) before = next value middle := by
  change EStateM.bind first next before = next value middle
  simp only [EStateM.bind,done]

theorem bind_of_failure {ε σ α β : Type} {first : EStateM ε σ α} {before middle : σ} {error : ε}
    (failed : first before = .error error middle) (next : α → EStateM ε σ β) :
    (first >>= next) before = .error error middle := by
  change EStateM.bind first next before = .error error middle
  simp only [EStateM.bind,failed]

theorem bind_of_eq {ε σ α β : Type} {first second : EStateM ε σ α} {before before' : σ}
    (same : first before = second before') (next : α → EStateM ε σ β) :
    (first >>= next) before = (second >>= next) before' := by
  change EStateM.bind first next before = EStateM.bind second next before'
  simp only [EStateM.bind,same]

theorem bind_success_iff {ε σ α β : Type} {first : EStateM ε σ α} {next : α → EStateM ε σ β}
    {before after : σ} {result : β} :
    (first >>= next) before = .ok result after ↔
      ∃ value middle, first before = .ok value middle ∧ next value middle = .ok result after := by
  refine ⟨bind_success first next before after result,?_⟩
  intro holds
  obtain ⟨value,middle,done,rest⟩ := holds
  rw [bind_of_success done]
  exact rest

theorem bind_failure {ε σ α β : Type} {first : EStateM ε σ α} {next : α → EStateM ε σ β}
    {before after : σ} {error : ε} (failed : (first >>= next) before = .error error after) :
    first before = .error error after ∨
      ∃ value middle, first before = .ok value middle ∧ next value middle = .error error after := by
  cases done : first before with
  | ok value middle =>
    rw [bind_of_success done] at failed
    exact .inr ⟨value,middle,rfl,failed⟩
  | error cause middle =>
    rw [bind_of_failure done] at failed
    cases failed
    exact .inl rfl

theorem pure_success_iff {ε σ α : Type} {before after : σ} {value result : α} :
    (pure value : EStateM ε σ α) before = .ok result after ↔ result = value ∧ after = before := by
  constructor
  · intro ok
    cases ok
    exact ⟨rfl,rfl⟩
  · intro holds
    obtain ⟨rfl,rfl⟩ := holds
    rfl

theorem check_success_iff {ε σ : Type} {condition : Bool} {error : ε} {before after : σ} {done : Unit} :
    (if condition then pure () else throw error : EStateM ε σ Unit) before = .ok done after ↔
      condition = true ∧ after = before := by
  cases condition with
  | false =>
    constructor
    · intro ok
      cases ok
    · intro holds
      obtain ⟨impossible,_⟩ := holds
      cases impossible
  | true =>
    rw [if_pos rfl,pure_success_iff]
    exact and_congr_left fun _ => iff_of_true rfl rfl

theorem get_bind_apply {ε σ α : Type} (next : σ → EStateM ε σ α) (before : σ) :
    (get >>= next) before = next before before := rfl

theorem State.executing_of_outside {state : State} (outside : state.flow = []) :
    state.executing = true := by
  rw [executing,outside]
  rfl

namespace Machine

variable {before after : State}

theorem ensure_success_iff {condition : Bool} {error : ScriptError} {done : Unit} :
    ensure condition error before = .ok done after ↔ condition = true ∧ after = before :=
  check_success_iff

theorem require_success_iff {n : Nat} {done : Unit} :
    require n before = .ok done after ↔ n ≤ before.stack.length ∧ after = before := by
  rw [require,get_bind_apply,ensure_success_iff,decide_eq_true_eq]

theorem require_of_le {n : Nat} (enough : n ≤ before.stack.length) : require n before = .ok () before :=
  require_success_iff.mpr ⟨enough,rfl⟩

theorem push_apply (item : Bytes) (before : State) :
    push item before = .ok () { before with stack := item :: before.stack } := rfl

theorem pop_cons {item : Bytes} {rest : Stack} (top : before.stack = item :: rest) :
    pop before = .ok item { before with stack := rest } := by
  rw [pop,get_bind_apply,top]
  rfl

theorem pop_nil (empty : before.stack = []) : pop before = .error .invalidStackOperation before := by
  rw [pop,get_bind_apply,empty]
  rfl

theorem pop_success_iff {item : Bytes} :
    pop before = .ok item after ↔
      ∃ rest, before.stack = item :: rest ∧ after = { before with stack := rest } := by
  constructor
  · intro ok
    cases top : before.stack with
    | nil =>
      rw [pop,get_bind_apply,top] at ok
      cases ok
    | cons first rest =>
      rw [pop_cons top] at ok
      cases ok
      exact ⟨rest,rfl,rfl⟩
  · intro holds
    obtain ⟨rest,top,rfl⟩ := holds
    exact pop_cons top

theorem orShort_success_iff {α : Type} {found : Option α} {value : α} :
    orShort found before = .ok value after ↔ found = some value ∧ after = before := by
  cases found with
  | none =>
    constructor
    · intro ok
      cases ok
    · intro holds
      obtain ⟨impossible,_⟩ := holds
      cases impossible
  | some first =>
    rw [orShort,pure_success_iff,Option.some.injEq,eq_comm]

theorem ofExcept_success_iff {α : Type} {result : Except ScriptError α} {value : α} :
    ofExcept result before = .ok value after ↔ result = .ok value ∧ after = before := by
  cases result with
  | ok other => rw [ofExcept,pure_success_iff,Except.ok.injEq,eq_comm]
  | error error =>
    constructor
    · intro ok
      cases ok
    · intro holds
      obtain ⟨impossible,_⟩ := holds
      cases impossible

theorem peek_success_iff {depth : Nat} {item : Bytes} :
    peek depth before = .ok item after ↔ before.stack.peek? depth = some item ∧ after = before := by
  rw [peek,get_bind_apply,orShort_success_iff]

theorem ensure_failure {condition : Bool} {error cause : ScriptError}
    (failed : ensure condition error before = .error cause after) :
    condition = false ∧ cause = error ∧ after = before := by
  cases condition with
  | true => cases failed
  | false =>
    cases failed
    exact ⟨rfl,rfl,rfl⟩

theorem charge_success_iff {n : Nat} {done : Unit} :
    charge n before = .ok done after ↔
      before.opCount + n ≤ maxOps ∧ after = { before with opCount := before.opCount + n } := by
  change ensure (decide (before.opCount + n ≤ maxOps)) .opCount
    { before with opCount := before.opCount + n } = .ok done after ↔ _
  rw [ensure_success_iff,decide_eq_true_eq]

theorem digest_success_iff {function : DigestFunction} {done : Unit} :
    digest function before = .ok done after ↔ ∃ item rest, before.stack = item :: rest ∧
      after = { before with stack := function.apply item :: rest } := by
  simp only [digest,bind_success_iff,pop_success_iff,push_apply]
  constructor
  · intro holds
    obtain ⟨item,_,⟨rest,top,rfl⟩,ok⟩ := holds
    cases ok
    exact ⟨item,rest,top,rfl⟩
  · intro holds
    obtain ⟨item,rest,top,rfl⟩ := holds
    exact ⟨item,_,⟨rest,top,rfl⟩,rfl⟩

theorem equal_success_iff {done : Unit} :
    equal .yield before = .ok done after ↔ ∃ a b rest, before.stack = a :: b :: rest ∧
      after = { before with stack := Number.ofBool (a = b) :: rest } := by
  simp only [equal,conclude,bind_success_iff,require_success_iff,pop_success_iff,push_apply]
  constructor
  · intro holds
    obtain ⟨_,_,⟨_,rfl⟩,a,_,⟨_,top,rfl⟩,b,_,⟨rest,second,rfl⟩,ok⟩ := holds
    cases ok
    exact ⟨a,b,rest,by rw [top]; exact congrArg (a :: ·) second,rfl⟩
  · intro holds
    obtain ⟨a,b,rest,top,rfl⟩ := holds
    refine ⟨(),before,⟨by simp [top],rfl⟩,a,_,⟨b :: rest,top,rfl⟩,b,_,⟨rest,rfl,rfl⟩,rfl⟩

theorem equalVerify_success_iff {done : Unit} :
    equal .demand before = .ok done after ↔ ∃ item rest, before.stack = item :: item :: rest ∧
      after = { before with stack := rest } := by
  simp only [equal,conclude,bind_success_iff,require_success_iff,pop_success_iff,ensure_success_iff,
    decide_eq_true_eq]
  constructor
  · intro holds
    obtain ⟨_,_,⟨_,rfl⟩,a,_,⟨_,top,rfl⟩,b,_,⟨rest,second,rfl⟩,rfl,rfl⟩ := holds
    exact ⟨a,rest,by rw [top]; exact congrArg (a :: ·) second,rfl⟩
  · intro holds
    obtain ⟨item,rest,top,rfl⟩ := holds
    refine ⟨(),before,⟨by simp [top],rfl⟩,item,_,⟨item :: rest,top,rfl⟩,item,_,⟨rest,rfl,rfl⟩,rfl,rfl⟩

theorem dup_success_iff {done : Unit} :
    shuffle .dup before = .ok done after ↔ ∃ item rest, before.stack = item :: rest ∧
      after = { before with stack := item :: item :: rest } := by
  simp only [shuffle,get_bind_apply,bind_success_iff,orShort_success_iff]
  constructor
  · intro holds
    obtain ⟨arranged,middle,⟨found,same⟩,ok⟩ := holds
    cases top : before.stack with
    | nil =>
      rw [top] at found
      cases found
    | cons item rest =>
      rw [top] at found
      cases found
      rw [same] at ok
      cases ok
      exact ⟨item,rest,rfl,rfl⟩
  · intro holds
    obtain ⟨item,rest,top,rfl⟩ := holds
    exact ⟨_,before,⟨by rw [top]; rfl,rfl⟩,rfl⟩

theorem setColor_success_iff {ctx : Context} {done : Unit} :
    setColor ctx before = .ok done after ↔ ∃ item rest color, before.stack = item :: rest ∧
      before.flow = [] ∧ ctx.redeem = false ∧ before.color = none ∧
      ColorId.ofBytes item = .ok color ∧
      after = { before with stack := rest, color := some color } := by
  simp only [setColor,bind_success_iff,require_success_iff,get_bind_apply,ensure_success_iff,
    peek_success_iff,List.isEmpty_iff,Bool.not_eq_true',Option.isNone_iff_eq_none]
  constructor
  · intro holds
    obtain ⟨_,_,⟨_,rfl⟩,_,_,⟨outside,rfl⟩,_,_,⟨plain,rfl⟩,_,_,⟨fresh,rfl⟩,item,_,⟨found,rfl⟩,ok⟩ := holds
    obtain ⟨rest,top⟩ := List.head?_eq_some_iff.mp (List.head?_eq_getElem?.trans found)
    cases read : ColorId.ofBytes item with
    | error fault =>
      rw [read] at ok
      cases ok
    | ok color =>
      rw [read] at ok
      obtain ⟨_,_,popped,ok⟩ := bind_success _ _ _ _ _ ok
      rw [pop_cons top] at popped
      cases popped
      cases ok
      exact ⟨item,rest,color,top,outside,plain,fresh,read,rfl⟩
  · intro holds
    obtain ⟨item,rest,color,top,outside,plain,fresh,read,rfl⟩ := holds
    refine ⟨(),before,⟨by simp [top],rfl⟩,(),before,⟨outside,rfl⟩,(),before,⟨plain,rfl⟩,(),before,
      ⟨fresh,rfl⟩,item,before,⟨by rw [Stack.peek?,top]; rfl,rfl⟩,?_⟩
    rw [read]
    exact bind_of_success (pop_cons top) _

theorem advance_success_iff {ctx : Context} {place : Nat} {chunk : Chunk} {done : Unit} :
    advance ctx place chunk before = .ok done after ↔ step ctx place chunk before = .ok () after ∧
      after.stack.length + after.alt.length ≤ maxItems := by
  simp only [advance,bind_success_iff,get_bind_apply,ensure_success_iff,decide_eq_true_eq]
  constructor
  · intro holds
    obtain ⟨_,_,ok,bound,rfl⟩ := holds
    exact ⟨ok,bound⟩
  · intro holds
    obtain ⟨ok,bound⟩ := holds
    exact ⟨(),after,ok,bound,rfl⟩

theorem step_operation (ctx : Context) (place : Nat) {chunk : Chunk} (operation : chunk.isPush = false) :
    step ctx place chunk = (do
      screen ctx chunk.opcode
      if (← get).reaches chunk.opcode then
        execute ctx place (Operation.ofOpcode chunk.opcode)) := by
  cases chunk with
  | push header payload => cases operation
  | op code => rfl
  | raw bytes => rfl

theorem advance_operation_success_iff {ctx : Context} {place : Nat} {chunk : Chunk} {done : Unit}
    (operation : chunk.isPush = false) (counted : Opcode.sixteen < chunk.opcode)
    (enabled : chunk.opcode.isDisabled = false) (free : chunk.opcode ≠ Opcode.codeSeparator)
    (outside : before.flow = []) :
    advance ctx place chunk before = .ok done after ↔ before.opCount + 1 ≤ maxOps ∧
      execute ctx place (Operation.ofOpcode chunk.opcode)
        { before with opCount := before.opCount + 1 } = .ok () after ∧
      after.stack.length + after.alt.length ≤ maxItems := by
  have screened {middle : State} {done : Unit} :
      screen ctx chunk.opcode before = .ok done middle ↔
        before.opCount + 1 ≤ maxOps ∧ middle = { before with opCount := before.opCount + 1 } := by
    simp only [screen,if_pos counted,bind_success_iff,charge_success_iff,ensure_success_iff]
    constructor
    · intro holds
      obtain ⟨_,_,⟨room,rfl⟩,_,_,⟨_,rfl⟩,_,rfl⟩ := holds
      exact ⟨room,rfl⟩
    · intro holds
      obtain ⟨room,rfl⟩ := holds
      exact ⟨(),_,⟨room,rfl⟩,(),_,⟨by rw [enabled]; rfl,rfl⟩,by simp [free],rfl⟩
  have executing (opCount : Nat) : ({ before with opCount } : State).reaches chunk.opcode = true := by
    simp [State.reaches,State.executing,outside]
  rw [advance_success_iff,step_operation ctx place operation,← and_assoc]
  refine and_congr_left fun _ => ?_
  simp only [bind_success_iff,screened,get_bind_apply]
  constructor
  · intro holds
    obtain ⟨_,_,⟨room,rfl⟩,ok⟩ := holds
    rw [if_pos (executing _)] at ok
    exact ⟨room,ok⟩
  · intro holds
    obtain ⟨room,ok⟩ := holds
    refine ⟨(),_,⟨room,rfl⟩,?_⟩
    rw [if_pos (executing _)]
    exact ok

theorem step_push_success_iff {ctx : Context} {place : Nat} {header payload : Bytes} {done : Unit}
    (executing : before.executing = true) :
    step ctx place (.push header payload) before = .ok done after ↔
      payload.length ≤ maxItem ∧
      (ctx.flags.has .minimalData = true → (Chunk.push header payload).isMinimal = true) ∧
      (Chunk.push header payload).isWellFormed = true ∧
      after = { before with stack := payload :: before.stack } := by
  have minimality : (!ctx.flags.has .minimalData || (Chunk.push header payload).isMinimal) = true ↔
      (ctx.flags.has .minimalData = true → (Chunk.push header payload).isMinimal = true) := by
    cases ctx.flags.has .minimalData <;> simp
  simp only [step,pushPayload,bind_success_iff,ensure_success_iff,get_bind_apply]
  constructor
  · intro holds
    obtain ⟨_,_,⟨short,rfl⟩,ok⟩ := holds
    rw [if_pos executing] at ok
    simp only [bind_success_iff,ensure_success_iff,minimality] at ok
    obtain ⟨_,_,⟨minimal,rfl⟩,_,_,⟨whole,rfl⟩,ok⟩ := ok
    cases ok
    exact ⟨of_decide_eq_true short,minimal,whole,rfl⟩
  · intro holds
    obtain ⟨short,minimal,whole,rfl⟩ := holds
    refine ⟨(),before,⟨decide_eq_true short,rfl⟩,?_⟩
    rw [if_pos executing]
    simp only [bind_success_iff,ensure_success_iff,minimality]
    exact ⟨(),before,⟨minimal,rfl⟩,(),before,⟨whole,rfl⟩,rfl⟩

theorem advance_push_success_iff {ctx : Context} {place : Nat} {header payload : Bytes}
    {done : Unit} (outside : before.flow = []) :
    advance ctx place (.push header payload) before = .ok done after ↔
      payload.length ≤ maxItem ∧
      (ctx.flags.has .minimalData = true → (Chunk.push header payload).isMinimal = true) ∧
      (Chunk.push header payload).isWellFormed = true ∧
      before.stack.length + 1 + before.alt.length ≤ maxItems ∧
      after = { before with stack := payload :: before.stack } := by
  rw [advance_success_iff,step_push_success_iff (State.executing_of_outside outside)]
  constructor
  · rintro ⟨⟨short,minimal,whole,rfl⟩,room⟩
    exact ⟨short,minimal,whole,room,rfl⟩
  · rintro ⟨short,minimal,whole,room,rfl⟩
    exact ⟨⟨short,minimal,whole,rfl⟩,room⟩

theorem advanceAll_cons_success_iff {ctx : Context} {place : Nat} {chunk : Chunk}
    {rest : List Chunk} {done : Unit} :
    advanceAll ctx place (chunk :: rest) before = .ok done after ↔
      ∃ middle, advance ctx place chunk before = .ok () middle ∧
        advanceAll ctx (place + 1) rest middle = .ok done after := by
  rw [advanceAll,bind_success_iff]
  exact ⟨fun ⟨_,middle,ok⟩ => ⟨middle,ok⟩,fun ⟨middle,ok⟩ => ⟨(),middle,ok⟩⟩

/-- The run lemma. What every chunk that succeeds keeps, a run that succeeds keeps. -/
theorem advanceAll_preserves {ctx : Context} {holds : State → Prop}
    (keeps : ∀ place chunk before after,
      advance ctx place chunk before = .ok () after → holds before → holds after)
    {place : Nat} {chunks : List Chunk} {done : Unit} (held : holds before)
    (ok : advanceAll ctx place chunks before = .ok done after) : holds after := by
  induction chunks generalizing place before with
  | nil =>
    cases ok
    exact held
  | cons chunk rest ih =>
    obtain ⟨middle,stepped,ok⟩ := advanceAll_cons_success_iff.mp ok
    exact ih (keeps place chunk before middle stepped held) ok

theorem run_success_iff {ctx : Context} {done : Unit} :
    run ctx before = .ok done after ↔ ctx.script.size ≤ Script.maxSize ∧
      advanceAll ctx 0 ctx.script before = .ok () after ∧ after.flow = [] := by
  simp only [run,bind_success_iff,ensure_success_iff,get_bind_apply,decide_eq_true_eq,
    List.isEmpty_iff]
  constructor
  · intro holds
    obtain ⟨_,_,⟨bound,rfl⟩,_,_,ok,closed,rfl⟩ := holds
    exact ⟨bound,ok,closed⟩
  · intro holds
    obtain ⟨bound,ok,closed⟩ := holds
    exact ⟨(),before,⟨bound,rfl⟩,(),after,ok,closed,rfl⟩

end Machine

end ColorScript
