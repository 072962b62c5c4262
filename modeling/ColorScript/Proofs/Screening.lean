import ColorScript.Machine.Conditional
import ColorScript.Proofs.Success

/-! The step of a chunk in two: what it is checked for wherever it stands, which is all that happens
to a skipped chunk, and what it does beyond that. -/
namespace ColorScript

/-- Whether an opcode is counted, never switched off, and executed only where branches are taken. -/
def Opcode.isOrdinary (opcode : Opcode) : Bool :=
  sixteen < opcode && !opcode.isDisabled && !opcode.isBranching && opcode ≠ codeSeparator

theorem Opcode.isBranching_eq (opcode : Opcode) :
    isBranching opcode = ((bracket? opcode).isSome || (opcode = 0x65 || opcode = 0x66)) := by
  revert opcode
  exact forall_byte (by decide +kernel)

theorem Chunk.refusal?_operation {flags : Flags} {chunk : Chunk} (operation : chunk.isPush = false) :
    chunk.refusal? flags =
      if Opcode.isDisabled chunk.opcode then some .disabledOpcode
      else if chunk.opcode = Opcode.codeSeparator && flags.has .constScriptCode then
        some .opCodeSeparator
      else if chunk.opcode = 0x65 || chunk.opcode = 0x66 then some .badOpcode
      else none := by
  cases chunk with
  | push header payload => cases operation
  | op code => rfl
  | raw bytes => rfl

theorem State.counting_free {chunk : Chunk} (free : chunk.isCounted = false) (state : State) :
    state.counting [chunk] = state := by
  simp [counting,free]

theorem State.counting_counted {chunk : Chunk} (counted : chunk.isCounted = true) (state : State) :
    state.counting [chunk] = { state with opCount := state.opCount + 1 } := by
  simp [counting,counted]

namespace Machine

variable {ctx : Context} {place : Nat} {chunk : Chunk} {before after : State}

/-- What a chunk does if nothing is wrong with it in itself. -/
def effect (ctx : Context) (place : Nat) (chunk : Chunk) : Machine Unit := do
  match chunk with
  | .push _ payload =>
    if (← get).executing then
      ensure (!ctx.flags.has .minimalData || chunk.isMinimal) .minimalData
      ensure chunk.isWellFormed .badOpcode
      push payload
  | _ =>
    if (← get).reaches chunk.opcode then
      execute ctx place (Operation.ofOpcode chunk.opcode)

theorem effect_operation (ctx : Context) (place : Nat) (operation : chunk.isPush = false) :
    effect ctx place chunk = (do
      if (← get).reaches chunk.opcode then
        execute ctx place (Operation.ofOpcode chunk.opcode)) := by
  cases chunk with
  | push header payload => cases operation
  | op code => rfl
  | raw bytes => rfl

private theorem checked_effect (ctx : Context) (place : Nat) (operation : chunk.isPush = false) :
    (do
      ensure (!Opcode.isDisabled chunk.opcode) .disabledOpcode
      ensure (!(chunk.opcode = Opcode.codeSeparator && ctx.flags.has .constScriptCode)) .opCodeSeparator
      if (← get).reaches chunk.opcode then
        execute ctx place (Operation.ofOpcode chunk.opcode)) =
    (do
      refuse (chunk.refusal? ctx.flags)
      effect ctx place chunk) := by
  rw [effect_operation ctx place operation,Chunk.refusal?_operation operation]
  cases Opcode.isDisabled chunk.opcode with
  | true => rfl
  | false =>
    rw [if_neg Bool.false_ne_true]
    cases chunk.opcode = Opcode.codeSeparator && ctx.flags.has .constScriptCode with
    | true => rfl
    | false =>
      rw [if_neg Bool.false_ne_true]
      cases void : (chunk.opcode = 0x65 || chunk.opcode = 0x66 : Bool) with
      | false => rfl
      | true =>
        -- These two are executed even where chunks are skipped, but there is nothing to execute.
        have reached (state : State) : state.reaches chunk.opcode = true := by
          rw [State.reaches,Opcode.isBranching_eq,void,Bool.or_true,Bool.or_true]
        have invalid : Operation.ofOpcode chunk.opcode = .invalid := by
          rcases (Bool.or_eq_true_iff.mp void).imp of_decide_eq_true of_decide_eq_true with same | same
          all_goals
            rw [same]
            rfl
        funext before
        simp only [invalid,reached,if_true]
        rfl

theorem step_eq (ctx : Context) (place : Nat) (chunk : Chunk) :
    step ctx place chunk = (do
      skip ctx chunk
      effect ctx place chunk) := by
  by_cases operation : chunk.isPush = false
  · have counted : chunk.isCounted = decide (Opcode.sixteen < chunk.opcode) := by
      simp [Chunk.isCounted,operation]
    rw [step_operation ctx place operation]
    simp only [screen,skip,counted,decide_eq_true_eq]
    split
    next =>
      simp only [bind_assoc]
      exact congrArg (charge 1 >>= ·) (funext fun _ => checked_effect ctx place operation)
    next =>
      simp only [bind_assoc]
      exact checked_effect ctx place operation
  · cases chunk with
    | push header payload =>
      by_cases short : payload.length ≤ maxItem
      · have fits : Chunk.refusal? ctx.flags (.push header payload) = none := if_pos short
        simp [step,pushPayload,skip,effect,fits,refuse,Chunk.isCounted,Chunk.isPush,ensure,short]
      · have long : Chunk.refusal? ctx.flags (.push header payload) = some .pushSize := if_neg short
        simp [step,pushPayload,skip,effect,long,refuse,Chunk.isCounted,Chunk.isPush,ensure,short]
    | op code => exact absurd rfl operation
    | raw bytes => exact absurd rfl operation

/-- Whatever skipping a chunk ends in, only the count of operations has changed. -/
theorem skip_apply (ctx : Context) (chunk : Chunk) (before : State) :
    skip ctx chunk before =
      if chunk.isCounted = true ∧ maxOps < before.opCount + 1 then
        .error .opCount (before.counting [chunk])
      else match chunk.refusal? ctx.flags with
        | some error => .error error (before.counting [chunk])
        | none => .ok () (before.counting [chunk]) := by
  cases counted : chunk.isCounted with
  | false =>
    rw [State.counting_free counted,if_neg fun excess => Bool.false_ne_true excess.1,skip,counted,
      if_neg Bool.false_ne_true]
    cases chunk.refusal? ctx.flags <;> rfl
  | true =>
    rw [State.counting_counted counted,skip,counted,if_pos rfl]
    by_cases room : before.opCount + 1 ≤ maxOps
    · have charged : charge 1 before = .ok () { before with opCount := before.opCount + 1 } :=
        charge_success_iff.mpr ⟨room,rfl⟩
      rw [bind_of_success charged,if_neg (by omega)]
      cases chunk.refusal? ctx.flags <;> rfl
    · have excess : charge 1 before = .error .opCount { before with opCount := before.opCount + 1 } := by
        change ensure (decide (before.opCount + 1 ≤ maxOps)) .opCount
          { before with opCount := before.opCount + 1 } = _
        rw [decide_eq_false room]
        rfl
      rw [if_pos ⟨rfl,by omega⟩]
      change EStateM.bind (charge 1) _ before = _
      rw [EStateM.bind,excess]

theorem skip_success_iff {done : Unit} :
    skip ctx chunk before = .ok done after ↔
      (chunk.isCounted = true → before.opCount + 1 ≤ maxOps) ∧ chunk.refusal? ctx.flags = none ∧
        after = before.counting [chunk] := by
  rw [skip_apply]
  split
  next excess => exact ⟨nofun,fun fine => absurd excess.2 (Nat.not_lt.mpr (fine.1 excess.1))⟩
  next within =>
    have room : chunk.isCounted = true → before.opCount + 1 ≤ maxOps :=
      fun counted => Nat.not_lt.mp fun excess => within ⟨counted,excess⟩
    cases chunk.refusal? ctx.flags with
    | some error => exact ⟨nofun,nofun⟩
    | none =>
      constructor
      · intro ok
        cases ok
        exact ⟨room,rfl,rfl⟩
      · rintro ⟨_,_,rfl⟩
        rfl

theorem skip_failure {error : ScriptError} (failed : skip ctx chunk before = .error error after) :
    after = before.counting [chunk] ∧ (error = .opCount ∨ chunk.refusal? ctx.flags = some error) := by
  rw [skip_apply] at failed
  split at failed
  next =>
    cases failed
    exact ⟨rfl,.inl rfl⟩
  next =>
    cases refused : chunk.refusal? ctx.flags with
    | some error =>
      rw [refused] at failed
      cases failed
      exact ⟨rfl,.inr rfl⟩
    | none =>
      rw [refused] at failed
      cases failed

end Machine

theorem Chunk.refusal?_cases {flags : Flags} {chunk : Chunk} {error : ScriptError}
    (refused : chunk.refusal? flags = some error) :
    error = .pushSize ∨ error = .disabledOpcode ∨
      (error = .opCodeSeparator ∧ flags.has .constScriptCode = true) ∨
      (error = .badOpcode ∧ (chunk.opcode = 0x65 ∨ chunk.opcode = 0x66)) := by
  unfold refusal? at refused
  split at refused
  next =>
    split at refused
    next => cases refused
    next =>
      cases refused
      exact .inl rfl
  next =>
    split at refused
    next =>
      cases refused
      exact .inr (.inl rfl)
    next =>
      split at refused
      next separated =>
        cases refused
        exact .inr (.inr (.inl ⟨rfl,(Bool.and_eq_true_iff.mp separated).2⟩))
      next =>
        split at refused
        next void =>
          cases refused
          exact .inr (.inr (.inr ⟨rfl,by simpa using void⟩))
        next => cases refused

theorem Chunk.refusal?_eq_none_iff {flags : Flags} {chunk : Chunk} :
    chunk.refusal? flags = none ↔
      (∀ payload, chunk.payload? = some payload → payload.length ≤ Machine.maxItem) ∧
      (chunk.isPush = false → chunk.opcode.isDisabled = false ∧ chunk.opcode ≠ 0x65 ∧
        chunk.opcode ≠ 0x66 ∧
        (flags.has .constScriptCode = true → chunk.opcode ≠ Opcode.codeSeparator)) := by
  cases operation : chunk.isPush with
  | true =>
    cases chunk with
    | push header payload => simp [refusal?,payload?]
    | op code => cases operation
    | raw bytes => cases operation
  | false =>
    have pushes : chunk.payload? = none := by
      cases chunk with
      | push header payload => cases operation
      | op code => rfl
      | raw bytes => rfl
    rw [refusal?_operation operation,pushes]
    by_cases separated : chunk.opcode = Opcode.codeSeparator
    · rw [separated]
      cases flags.has .constScriptCode <;> decide
    · cases chunk.opcode.isDisabled <;> simp [separated]

theorem Opcode.isCounted_of_isOrdinary {code : Opcode} (ordinary : code.isOrdinary = true) :
    Chunk.isCounted (.op code) = true := by
  simp only [isOrdinary,Bool.and_eq_true] at ordinary
  exact ordinary.1.1.1

namespace Machine

theorem step_ordinary {code : Opcode} (ordinary : code.isOrdinary = true) (ctx : Context) (place : Nat)
    (before : State) :
    step ctx place (.op code) before =
      if before.opCount < maxOps then
        if before.executing then
          execute ctx place (Operation.ofOpcode code) { before with opCount := before.opCount + 1 }
        else .ok () { before with opCount := before.opCount + 1 }
      else .error .opCount { before with opCount := before.opCount + 1 } := by
  have charged := Opcode.isCounted_of_isOrdinary ordinary
  simp only [Opcode.isOrdinary,Bool.and_eq_true,Bool.not_eq_true',decide_eq_true_eq] at ordinary
  obtain ⟨⟨⟨_,enabled⟩,outer⟩,unseparated⟩ := ordinary
  have fits : Chunk.refusal? ctx.flags (.op code) = none := by
    refine Chunk.refusal?_eq_none_iff.mpr ⟨nofun,fun _ => ⟨enabled,?_,?_,fun _ => unseparated⟩⟩
    all_goals
      rintro rfl
      cases outer
  have skipped := skip_apply ctx (.op code) before
  rw [fits,State.counting_counted charged] at skipped
  have reached (state : State) : state.reaches code = state.executing := by
    rw [State.reaches,outer,Bool.or_false]
  rw [step_eq]
  split
  next room =>
    rw [if_neg fun excess => by omega] at skipped
    have executing : State.executing { before with opCount := before.opCount + 1 } = before.executing := rfl
    rw [bind_of_success skipped,effect_operation ctx place rfl,get_bind_apply,Chunk.opcode,reached,executing]
    cases before.executing <;> rfl
  next full =>
    rw [if_pos ⟨charged,by omega⟩] at skipped
    exact bind_of_failure skipped _

end Machine

end ColorScript
