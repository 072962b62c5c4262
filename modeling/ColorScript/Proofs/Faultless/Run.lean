import ColorScript.Proofs.Faultless.Memory
import ColorScript.Proofs.Faultless.SignatureCheck

/-! A run does not fault. Every operation finds the stacks small enough and few enough operations
counted, since every chunk before has left them so, and the stacks are counted together only where one
chunk has added to them. -/
namespace ColorScript

private theorem Checked.operation_eq (opcode : Opcode) : operation opcode = .ok (Operation.ofOpcode opcode) := by
  unfold operation Operation.ofOpcode
  split
  next => rfl
  next =>
    split
    next =>
      rw [smallInt?_eq,ok_bind]
      cases Opcode.smallInt? opcode <;> rfl
    next => rfl

namespace GuardedMachine

open Guarded

variable {ctx : Context} {before : State} {place : Nat} {chunk : Chunk}

/-- The step lemma of an operation. -/
theorem execute_agrees (fits : ctx.script.Addressable) (memory : before.Addressable)
    (room : place + 1 < 2 ^ 64) (operation : Operation) :
    Agrees (execute ctx place operation) (Machine.execute ctx place operation) before := by
  cases operation with
  | pushInt n => exact pushNumber_agrees n
  | checkLockTime => exact checkLockTime_agrees
  | checkSequence => exact checkSequence_agrees
  | branch negated => exact branch_agrees ctx negated
  | verify => exact verify_agrees
  | shuffle move => exact shuffle_agrees move
  | dupIfTrue => exact dupIfTrue_agrees
  | depth => exact depth_agrees ctx place memory.stack
  | fetch removed => exact fetch_agrees ctx removed
  | size => exact size_agrees ctx place memory.items
  | unary function => exact unary_agrees ctx function
  | binary function => exact binary_agrees ctx function
  | numEqualVerify => exact numEqualVerify_agrees
  | within => exact within_agrees
  | codeSeparator => exact Agrees.computed (Checked.add_eq room) (Agrees.modify _ before)
  | checkSig ending => exact checkSig_agrees fits ending
  | checkDataSig ending => exact checkDataSig_agrees ending
  | checkMultiSig ending => exact checkMultiSig_agrees fits memory.opCount ending
  | setColor => exact setColor_agrees
  | nothing | reservedNothing | otherwise | endBranch | giveUp | toAlt | fromAlt | equal ending
  | digest function | invalid => exact Agrees.lift _ before

private theorem pushPayload_agrees (ctx : Context) (chunk : Chunk) (payload : Bytes) :
    Agrees (pushPayload ctx chunk payload) (Machine.pushPayload ctx chunk payload) before := by
  refine Agrees.followed fun _ _ => (Agrees.get _).bind fun state middle _ => Agrees.ite (fun _ => ?_)
    fun _ => Agrees.pure () middle
  refine Agrees.computed (Checked.provided_eq (Checked.isMinimal_eq chunk)) (Agrees.followed fun _ _ => ?_)
  exact Agrees.computed (Checked.isWellFormed_eq chunk) (Agrees.followed fun _ _ => Agrees.lift _ _)

private theorem screen_agrees (small : before.opCount ≤ Machine.maxOps) (opcode : Opcode) :
    Agrees (screen ctx opcode) (Machine.screen ctx opcode) before := by
  rw [Machine.maxOps] at small
  refine Agrees.ite (fun _ => ?_) fun _ => Agrees.followed fun _ _ => Agrees.lift _ _
  exact (charge_agrees (by omega)).bind fun _ _ _ => Agrees.followed fun _ _ => Agrees.lift _ _

private theorem addressable_of_screen {opcode : Opcode} {after : State} (memory : before.Addressable)
    (ok : Machine.screen ctx opcode before = .ok () after) : after.Addressable := by
  obtain ⟨stack,items,alt,altItems,opCount⟩ := memory
  unfold Machine.screen at ok
  split at ok
  next =>
    simp only [bind_success_iff,Machine.charge_success_iff,Machine.ensure_success_iff] at ok
    obtain ⟨_,_,⟨limited,rfl⟩,_,_,⟨_,rfl⟩,_,rfl⟩ := ok
    exact ⟨stack,items,alt,altItems,limited⟩
  next =>
    simp only [bind_success_iff,Machine.ensure_success_iff] at ok
    obtain ⟨_,_,⟨_,rfl⟩,_,rfl⟩ := ok
    exact ⟨stack,items,alt,altItems,opCount⟩

private theorem step_agrees (fits : ctx.script.Addressable) (memory : before.Addressable)
    (room : place + 1 < 2 ^ 64) (chunk : Chunk) :
    Agrees (step ctx place chunk) (Machine.step ctx place chunk) before := by
  have screened : Agrees (do
      screen ctx chunk.opcode
      if (← get).reaches chunk.opcode then execute ctx place (← Checked.operation chunk.opcode)) (do
      Machine.screen ctx chunk.opcode
      if (← get).reaches chunk.opcode then
        Machine.execute ctx place (Operation.ofOpcode chunk.opcode)) before := by
    refine (screen_agrees memory.opCount _).bind fun _ middle ran => Agrees.read ?_
    exact Agrees.ite (fun _ => Agrees.computed (Checked.operation_eq _)
      (execute_agrees fits (addressable_of_screen memory ran) room _)) fun _ => Agrees.pure () middle
  cases chunk with
  | push header payload => exact pushPayload_agrees ctx _ payload
  | op code => exact screened
  | raw bytes => exact screened

-- The step lemma of a chunk.
private theorem advance_agrees (fits : ctx.script.Addressable) (memory : before.Addressable)
    (room : place + 1 < 2 ^ 64) (chunk : Chunk) :
    Agrees (advance ctx place chunk) (Machine.advance ctx place chunk) before := by
  refine (step_agrees fits memory room chunk).bind fun _ middle ran => Agrees.read ?_
  have reached : (Visit.mk place chunk before).after ctx = middle := by
    have limited : Machine.advance ctx place chunk = Machine.step ctx place chunk >>= fun _ =>
      Machine.limit := rfl
    rw [Visit.after,limited,Looks.final_bind fun _ => Machine.limit_looks]
    exact congrArg final ran
  have stack : middle.stack.length ≤ before.stack.length + 3 :=
    reached ▸ (Machine.advance_affordable ctx ⟨place,chunk,before⟩).stack
  have alt : middle.alt.length ≤ before.alt.length + 1 := reached ▸ Machine.after_alt ctx ⟨place,chunk,before⟩
  have start := memory.stack
  have few : before.alt.length ≤ 1000 := memory.alt
  exact Agrees.computed (Checked.add_eq (by omega)) (Agrees.lift _ middle)

-- The run lemma: every chunk leaves what the next one needs.
private theorem advanceAll_agrees (fits : ctx.script.Addressable) (memory : before.Addressable)
    (chunks : List Chunk) (room : place + chunks.length < 2 ^ 64) :
    Agrees (advanceAll ctx place chunks) (Machine.advanceAll ctx place chunks) before := by
  induction chunks generalizing place before with
  | nil => exact Agrees.pure () before
  | cons chunk rest ih =>
    rw [List.length_cons] at room
    refine (advance_agrees fits memory (by omega) chunk).bind fun _ middle ran => ?_
    exact ih (Machine.advance_addressable memory ran) (by omega)

theorem run_agrees (fits : ctx.script.Addressable) (memory : before.Addressable) :
    Agrees (run ctx) (Machine.run ctx) before := by
  refine Agrees.computed (Checked.size_eq fits) ((Agrees.lift _ _).bind fun _ middle allowed => ?_)
  obtain ⟨_,rfl⟩ := Machine.ensure_success_iff.mp allowed
  have chunks := fits.chunks
  refine (advanceAll_agrees fits memory ctx.script (by omega)).bind fun _ last _ => ?_
  exact (Agrees.get last).bind fun _ _ _ => Agrees.lift _ _

end GuardedMachine

end ColorScript
