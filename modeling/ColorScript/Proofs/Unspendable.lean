import ColorScript.Proofs.ErrorCauses

/-! Outputs that nothing can spend. A script that was read from bytes and starts with the byte of
`OP_RETURN` starts with that operation, and no run comes past it; no script that is too large is run. -/
namespace ColorScript

open Opcode

namespace Script

private theorem parse_of_returnData {bytes : Bytes}
    (first : (parse bytes).head?.map Chunk.opcode = some returnData) :
    ∃ rest, bytes = returnData :: rest ∧ parse bytes = .op returnData :: parse rest := by
  cases bytes with
  | nil =>
    rw [parse] at first
    cases first
  | cons byte rest =>
    rw [parse,List.head?_cons,Option.map_some,Chunk.opcode_split,Option.some.injEq] at first
    subst first
    exact ⟨rest,rfl,parse_op (by decide) (by decide) rest⟩

private theorem isUnspendable_of_isOpReturn {script : Script} (carries : script.isOpReturn = true) :
    script.isUnspendable = true := by
  obtain ⟨rest,rfl,_⟩ := isOpReturn_iff.mp carries
  rfl

end Script

namespace Machine

variable {ctx : Context} {before after : State} {bytes : Bytes}

private theorem advance_returnData (outside : before.flow = []) {place : Nat} {done : Unit} :
    advance ctx place (.op returnData) before ≠ .ok done after := by
  have counted : Opcode.sixteen < (Chunk.op returnData).opcode := by decide
  intro ok
  obtain ⟨_,executed,_⟩ := (advance_operation_success_iff rfl counted rfl (by decide) outside).mp ok
  cases executed

private theorem run_unspendable (read : ctx.script = Script.parse bytes)
    (plain : (Script.parse bytes).isUnspendable = true) (outside : before.flow = []) {done : Unit} :
    run ctx before ≠ .ok done after := by
  intro ok
  obtain ⟨fits,ran,_⟩ := run_success_iff.mp ok
  rw [read] at fits ran
  rcases Bool.or_eq_true_iff.mp plain with returns | large
  · obtain ⟨rest,_,chunks⟩ := Script.parse_of_returnData (of_decide_eq_true returns)
    rw [chunks] at ran
    obtain ⟨_,advanced,_⟩ := advanceAll_cons_success_iff.mp ran
    exact advance_returnData outside advanced
  · exact Nat.not_lt_of_ge fits (of_decide_eq_true large)

end Machine

namespace Session

private theorem verify_failed_or_locked (rules : Rules) (unlocking locking : Script) (before : Session) :
    (∃ error after, verify rules unlocking locking before = .error (.failed error) after) ∨
    ∃ unlocked locked, (lockingRun rules locking unlocked).outcome = .ok () locked := by
  rcases verify_cases rules unlocking locking before with
    ⟨after,accepted,_⟩ | ⟨error,after,failed,_⟩ | ⟨after,refused⟩
  · obtain ⟨last,satisfied,_⟩ := verify_success_iff.mp accepted
    rw [satisfy_eq] at satisfied
    obtain ⟨stack,middle,opened,_⟩ := bind_success _ _ _ _ _ satisfied
    obtain ⟨_,unlocked,locked,_,ran,_⟩ := (unlock_fresh_iff rfl).mp ⟨stack,middle,opened⟩
    exact .inr ⟨unlocked,locked,ran⟩
  · exact .inl ⟨error,after,failed⟩
  · obtain ⟨unlocked,locked,_,ran,_⟩ := (verify_refused_iff.mp ⟨after,refused⟩).accepts
    exact .inr ⟨unlocked,locked,ran⟩

/-- A script that is plainly unspendable is satisfied by no script and under no rules: every
verification fails with an error. -/
theorem verify_unspendable {bytes : Bytes}
    (plain : (Script.parse bytes).isUnspendable = true ∨ (Script.parse bytes).isOpReturn = true)
    (rules : Rules) (unlocking : Script) (before : Session) :
    (¬ ∃ after, verify rules unlocking (Script.parse bytes) before = .ok () after) ∧
    ∃ error after, verify rules unlocking (Script.parse bytes) before = .error (.failed error) after := by
  have unspendable : (Script.parse bytes).isUnspendable = true :=
    plain.elim id Script.isUnspendable_of_isOpReturn
  rcases verify_failed_or_locked rules unlocking (Script.parse bytes) before with
    ⟨error,after,failed⟩ | ⟨unlocked,locked,ran⟩
  · refine ⟨fun accepted => ?_,error,after,failed⟩
    obtain ⟨_,accepted⟩ := accepted
    cases failed.symm.trans accepted
  · exact absurd ran (Machine.run_unspendable rfl unspendable rfl)

/-- A data carrier that pushes what would make any other script true. -/
theorem verify_unspendable_opReturn :
    ∃ error after, verify ⟨Flags.mandatory,Oracle.never⟩ [.op 0x51] (Script.parse [0x6a,0x51]) {} =
      .error (.failed error) after :=
  (verify_unspendable (.inr (by decide +kernel)) ⟨Flags.mandatory,Oracle.never⟩ [.op 0x51] {}).2

end Session

end ColorScript
