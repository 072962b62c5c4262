import ColorScript.Proofs.OperationLockstep
import ColorScript.Proofs.SignatureLockstep
import ColorScript.Proofs.Verification

/-! Whole runs in lock step, from the step of one operation to a run of a script and to
the evaluation in a session. -/
namespace ColorScript

namespace Machine

variable {view : View} {strict lax : Context}

/-- The step lemma, one case for each operation. Only the number of items on the stack can tell
whether there are items below. -/
theorem execute_lockstep (relaxes : view.Relaxes strict lax) (place : Nat) (operation : Operation)
    (blind : view.base = [] ∨ operation ≠ .depth) :
    Lockstep view.Alike Eq (execute strict place operation) (execute lax place operation) := by
  cases operation with
  | pushInt n => exact push_lockstep _
  | nothing => exact Lockstep.pure rfl
  | reservedNothing => exact reservedNothing_lockstep relaxes
  | checkLockTime => exact checkLockTime_lockstep relaxes
  | checkSequence => exact checkSequence_lockstep relaxes
  | branch negated => exact branch_lockstep relaxes negated
  | otherwise => exact otherwise_lockstep
  | endBranch => exact endBranch_lockstep
  | verify => exact verify_lockstep
  | giveUp => exact Lockstep.throw _ _
  | toAlt => exact toAlt_lockstep
  | fromAlt => exact fromAlt_lockstep
  | shuffle move => exact shuffle_lockstep move
  | dupIfTrue => exact dupIfTrue_lockstep
  | depth =>
    have alone := blind.resolve_right fun other => other rfl
    refine Lockstep.get.bind fun before before' alike => ?_
    rw [alike.stack,alone,List.append_nil]
    exact push_lockstep _
  | fetch removed => exact fetch_lockstep relaxes removed
  | size => exact (peek_lockstep 0).seq fun item => push_lockstep _
  | equal ending => exact equal_lockstep ending
  | unary function => exact unary_lockstep relaxes function
  | binary function => exact binary_lockstep relaxes function
  | numEqualVerify => exact numEqualVerify_lockstep relaxes
  | within => exact within_lockstep relaxes
  | digest function => exact digest_lockstep function
  | codeSeparator =>
    apply Lockstep.modify
    intro before before' alike
    exact { alike with codeStart := rfl }
  | checkSig ending => exact checkSig_lockstep relaxes ending
  | checkDataSig ending => exact checkDataSig_lockstep relaxes ending
  | checkMultiSig ending => exact checkMultiSig_lockstep relaxes ending
  | setColor => exact setColor_lockstep relaxes
  | invalid => exact Lockstep.throw _ _

private theorem pushPayload_lockstep (relaxes : view.Relaxes strict lax) (chunk : Chunk) (payload : Bytes) :
    Lockstep view.Alike Eq (pushPayload strict chunk payload) (pushPayload lax chunk payload) := by
  refine guard_lockstep id fun _ => Lockstep.get.bind fun before before' alike => ?_
  rw [executing_eq alike]
  refine Lockstep.ite (fun _ => ?_) fun _ => Lockstep.pure rfl
  refine guard_lockstep (Flags.unless_has relaxes.rules.flags _ _) fun _ => ?_
  exact guard_lockstep id fun _ => push_lockstep payload

private theorem screen_lockstep (relaxes : view.Relaxes strict lax) (opcode : Opcode) :
    Lockstep view.Alike Eq (screen strict opcode) (screen lax opcode) := by
  have checks : Lockstep view.Alike Eq
      (do
        ensure (!opcode.isDisabled) .disabledOpcode
        ensure (!(opcode = Opcode.codeSeparator && strict.flags.has .constScriptCode)) .opCodeSeparator)
      (do
        ensure (!opcode.isDisabled) .disabledOpcode
        ensure (!(opcode = Opcode.codeSeparator && lax.flags.has .constScriptCode)) .opCodeSeparator) := by
    refine guard_lockstep id fun _ => ensure_lockstep _ _ _ _ fun passed => ?_
    cases set : lax.flags.has .constScriptCode with
    | false => simp
    | true => rwa [relaxes.rules.flags _ set] at passed
  exact Lockstep.ite (fun _ => (charge_lockstep 1).seq fun _ => checks) fun _ => checks

theorem step_lockstep (relaxes : view.Relaxes strict lax) (place : Nat) (chunk : Chunk)
    (blind : view.base = [] ∨ Operation.ofOpcode chunk.opcode ≠ .depth) :
    Lockstep view.Alike Eq (step strict place chunk) (step lax place chunk) := by
  have operation : Lockstep view.Alike Eq
      (do
        screen strict chunk.opcode
        if (← get).reaches chunk.opcode then
          execute strict place (Operation.ofOpcode chunk.opcode))
      (do
        screen lax chunk.opcode
        if (← get).reaches chunk.opcode then
          execute lax place (Operation.ofOpcode chunk.opcode)) := by
    refine (screen_lockstep relaxes _).seq fun _ => Lockstep.get.bind fun before before' alike => ?_
    rw [State.reaches,State.reaches,executing_eq alike]
    exact Lockstep.ite (fun _ => execute_lockstep relaxes place _ blind) fun _ => Lockstep.pure rfl
  cases chunk with
  | push header payload => exact pushPayload_lockstep relaxes _ payload
  | op code => exact operation
  | raw bytes => exact operation

theorem advance_lockstep (relaxes : view.Relaxes strict lax) (whole : view.base = []) (place : Nat)
    (chunk : Chunk) : Lockstep view.Alike Eq (advance strict place chunk) (advance lax place chunk) := by
  refine (step_lockstep relaxes place chunk (.inl whole)).seq fun _ => ?_
  refine Lockstep.get.bind fun before before' alike => ensure_lockstep _ _ _ _ fun within => ?_
  rwa [alike.stack,whole,List.append_nil,alike.alt]

private theorem advanceAll_lockstep (relaxes : view.Relaxes strict lax) (whole : view.base = [])
    (place : Nat) (chunks : List Chunk) :
    Lockstep view.Alike Eq (advanceAll strict place chunks) (advanceAll lax place chunks) := by
  induction chunks generalizing place with
  | nil => exact Lockstep.pure rfl
  | cons chunk rest ih => exact (advance_lockstep relaxes whole place chunk).seq fun _ => ih _

/-- The run lemma: a run of a script that succeeds is followed step by step under laxer rules. -/
theorem run_lockstep (relaxes : view.Relaxes strict lax) (whole : view.base = []) :
    Lockstep view.Alike Eq (run strict) (run lax) := by
  rw [run,run,relaxes.script]
  refine guard_lockstep id fun _ => (advanceAll_lockstep relaxes whole _ _).seq fun _ => ?_
  refine Lockstep.get.bind fun before before' alike => ensure_lockstep _ _ _ _ fun closed => ?_
  rwa [alike.flow]

end Machine

namespace Session

/-- Two sessions with one stack and, if colours are looked at, one colour. -/
structure Agree (colors : Bool) (first second : Session) : Prop where
  stack : second.stack = first.stack
  color : colors = true → second.color = first.color

variable {strict lax : Rules} {colors : Bool}

/-- Colours need not agree before the run of a redeem script, which cannot look at them. -/
theorem evaluate_lockstep (relaxed : Rules.Relaxed strict lax) (script : Script) (redeem : Bool)
    (seen : redeem = false → colors = true) :
    Lockstep (Agree colors) Eq (evaluate strict script redeem) (evaluate lax script redeem) := by
  intro before before' value after agree ok
  have relaxes : ({ colors } : View).Relaxes { strict with script, redeem } { lax with script, redeem } :=
    ⟨relaxed,rfl,rfl,seen,fun compared => nomatch compared⟩
  have alike : ({ colors } : View).Alike before.start before'.start :=
    ⟨by rw [List.append_nil]; exact agree.stack,rfl,rfl,rfl,rfl,agree.color,fun compared => nomatch compared⟩
  obtain ⟨state,ran,rfl⟩ := evaluate_success_iff.mp ok
  obtain ⟨_,state',ran',rfl,alike'⟩ := Machine.run_lockstep relaxes rfl _ _ _ _ alike ran
  have stack : state'.stack = state.stack := by simpa only [List.append_nil] using alike'.stack
  exact ⟨(),_,evaluate_success_iff.mpr ⟨state',ran',rfl⟩,rfl,stack,alike'.color⟩

end Session

end ColorScript
