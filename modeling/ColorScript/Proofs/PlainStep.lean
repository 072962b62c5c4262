import ColorScript.Proofs.OperationInvariant
import ColorScript.Proofs.Screening

/-! The step of a chunk that is no bracket of a conditional: every invariant of the operations
outside of conditionals holds after it, executed or not. -/
namespace ColorScript

def Bracket.operation (negated : Bool) : Bracket → Operation
  | .opening => .branch negated
  | .divider => .otherwise
  | .closing => .endBranch

theorem Opcode.bracket?_cases {opcode : Opcode} {bracket : Bracket}
    (kind : bracket? opcode = some bracket) :
    (bracket = .opening ∧ (opcode = 0x63 ∨ opcode = 0x64)) ∨ (bracket = .divider ∧ opcode = 0x67) ∨
      (bracket = .closing ∧ opcode = 0x68) := by
  unfold bracket? at kind
  split at kind <;> simp_all

namespace Operation

theorem ofOpcode_of_bracket {opcode : Opcode} {bracket : Bracket}
    (kind : Opcode.bracket? opcode = some bracket) :
    ofOpcode opcode = bracket.operation (opcode = 0x64) := by
  rcases Opcode.bracket?_cases kind with ⟨rfl,rfl | rfl⟩ | ⟨rfl,rfl⟩ | ⟨rfl,rfl⟩ <;> rfl

private theorem ofOpcode_plain {opcode : Opcode} (plain : Opcode.bracket? opcode = none)
    (bracket : Bracket) (negated : Bool) : ofOpcode opcode ≠ bracket.operation negated := by
  have each : ∀ opcode, Opcode.bracket? opcode = none →
      (match ofOpcode opcode with
      | .branch _ | .otherwise | .endBranch => false
      | _ => true) = true := forall_byte (by decide +kernel)
  intro same
  have free := each opcode plain
  rw [same] at free
  cases bracket <;> cases free

theorem natAbs_of_ofOpcode {opcode : Opcode} {n : Int} (pushes : ofOpcode opcode = .pushInt n) :
    n.natAbs < 2 ^ 64 := by
  have each : ∀ opcode, (match ofOpcode opcode with
      | .pushInt n => decide (n.natAbs < 2 ^ 64)
      | _ => true) = true := forall_byte (by decide +kernel)
  have bound := each opcode
  rw [pushes] at bound
  exact of_decide_eq_true bound

end Operation

private theorem Chunk.opcode_plain {chunk : Chunk} (operation : chunk.isPush = false)
    (plain : chunk.bracket? = none) : Opcode.bracket? chunk.opcode = none := by
  rwa [bracket?,operation] at plain

namespace Machine

variable {ctx : Context} {sound : Bytes → Prop} {holds : State → Prop} {before : State}
  {chunk : Chunk}

/-- One case for each operation that changes the stack and the counts alone. -/
theorem execute_settled (settled : Settled ctx sound holds) (place : Nat) (operation : Operation)
    (plain : ∀ (bracket : Bracket) (negated : Bool), operation ≠ bracket.operation negated)
    (unmarked : operation ≠ .codeSeparator ∧ operation ≠ .setColor)
    (single : operation ≠ .toAlt ∧ operation ≠ .fromAlt)
    (pushes : ∀ n, operation = .pushInt n → n.natAbs < 2 ^ 64) (held : holds before)
    (counts : sound (Number.encode before.stack.length)) :
    Ends holds (fun _ => True) (fun error => error.arises ctx = true)
      (execute ctx place operation before) := by
  -- The operations that change more are excluded; each other one has its lemma.
  cases operation with
  | pushInt n => exact settled.push_respects (settled.number (pushes n rfl)) before held
  | nothing => exact ⟨held,trivial⟩
  | reservedNothing => exact reservedNothing_respects before held
  | checkLockTime => exact settled.checkLockTime_respects before held
  | checkSequence => exact settled.checkSequence_respects before held
  | branch negated => exact absurd rfl (plain .opening negated)
  | otherwise => exact absurd rfl (plain .divider false)
  | endBranch => exact absurd rfl (plain .closing false)
  | verify => exact settled.verify_respects before held
  | giveUp => exact ⟨held,rfl⟩
  | toAlt => exact absurd rfl single.1
  | fromAlt => exact absurd rfl single.2
  | shuffle move => exact settled.shuffle_respects move before held
  | dupIfTrue => exact settled.dupIfTrue_respects before held
  | depth => exact settled.push_respects counts before held
  | fetch removed => exact settled.fetch_respects removed before held
  | size =>
    have step : Respects ctx holds (fun _ => True) (do push (Number.encode (← peek 0).length)) :=
      (settled.peek_respects 0).bind fun _ fine => settled.push_respects (settled.size fine)
    exact step before held
  | equal ending => exact settled.equal_respects ending before held
  | unary function => exact settled.unary_respects function before held
  | binary function => exact settled.binary_respects function before held
  | numEqualVerify => exact settled.numEqualVerify_respects before held
  | within => exact settled.within_respects before held
  | digest function => exact settled.digest_respects function before held
  | codeSeparator => exact absurd rfl unmarked.1
  | checkSig ending => exact settled.checkSig_respects ending before held
  | checkDataSig ending => exact settled.checkDataSig_respects ending before held
  | checkMultiSig ending => exact settled.checkMultiSig_respects ending before held
  | setColor => exact absurd rfl unmarked.2
  | invalid => exact ⟨held,rfl⟩

/-- The step lemma for the operations that change the stacks and the counts alone. -/
theorem execute_steady (steady : Steady ctx sound holds) (place : Nat) (operation : Operation)
    (plain : ∀ (bracket : Bracket) (negated : Bool), operation ≠ bracket.operation negated)
    (unmarked : operation ≠ .codeSeparator ∧ operation ≠ .setColor)
    (pushes : ∀ n, operation = .pushInt n → n.natAbs < 2 ^ 64) (held : holds before)
    (counts : sound (Number.encode before.stack.length)) :
    Ends holds (fun _ => True) (fun error => error.arises ctx = true)
      (execute ctx place operation before) := by
  cases operation with
  | toAlt => exact steady.toAlt_respects before held
  | fromAlt => exact steady.fromAlt_respects before held
  | _ => exact execute_settled steady.toSettled place _ plain unmarked ⟨nofun,nofun⟩ pushes held counts

/-- The step lemma for the operations outside of conditionals. -/
theorem execute_respects (stable : Stable ctx sound holds) (place : Nat) (operation : Operation)
    (plain : ∀ (bracket : Bracket) (negated : Bool), operation ≠ bracket.operation negated)
    (pushes : ∀ n, operation = .pushInt n → n.natAbs < 2 ^ 64) (held : holds before)
    (counts : sound (Number.encode before.stack.length)) :
    Ends holds (fun _ => True) (fun error => error.arises ctx = true)
      (execute ctx place operation before) := by
  cases operation with
  | codeSeparator => exact ⟨stable.separate _ held,trivial⟩
  | setColor => exact stable.setColor_respects before held
  | _ => exact execute_steady stable.toSteady place _ plain ⟨nofun,nofun⟩ pushes held counts

theorem advance_eq (ctx : Context) (place : Nat) (chunk : Chunk) :
    advance ctx place chunk = (do
      skip ctx chunk
      effect ctx place chunk
      limit) := by
  have stepped := step_eq ctx place chunk
  rw [advance,stepped,bind_assoc]
  rfl

private theorem limit_respects : Respects ctx holds (fun _ => True) limit :=
  Keeps.get.bind fun _ _ => (ensure_respects fun _ => rfl).weaken fun _ _ => trivial

private theorem skip_ends (settled : Settled ctx sound holds) (held : holds before) :
    Ends (fun middle => holds middle ∧ middle.stack = before.stack)
      (fun _ => chunk.refusal? ctx.flags = none) (fun error => error.arises ctx = true)
      (skip ctx chunk before) := by
  have counted : holds (before.counting [chunk]) := settled.count _ held
  cases skipped : skip ctx chunk before with
  | ok done middle =>
    obtain ⟨_,fits,rfl⟩ := skip_success_iff.mp skipped
    exact ⟨⟨counted,rfl⟩,fits⟩
  | error error middle =>
    obtain ⟨rfl,cause⟩ := skip_failure skipped
    refine ⟨⟨counted,rfl⟩,?_⟩
    rcases cause with rfl | refused
    · rfl
    · rcases Chunk.refusal?_cases refused with rfl | rfl | ⟨rfl,strict⟩ | ⟨rfl,_⟩
      · rfl
      · rfl
      · exact strict
      · rfl

/-- A chunk does no more than to push an item or to execute its operation. -/
theorem effect_ends (settled : Settled ctx sound holds) (place : Nat)
    (fits : chunk.refusal? ctx.flags = none) (held : holds before)
    (executed : chunk.isPush = false → before.reaches chunk.opcode = true →
      Ends holds (fun _ => True) (fun error => error.arises ctx = true)
        (execute ctx place (Operation.ofOpcode chunk.opcode) before)) :
    Ends holds (fun _ => True) (fun error => error.arises ctx = true)
      (effect ctx place chunk before) := by
  cases kind : chunk.isPush with
  | false =>
    rw [effect_operation ctx place kind,get_bind_apply]
    split
    next reached => exact executed kind reached
    next => exact ⟨held,trivial⟩
  | true =>
    cases chunk with
    | push header payload =>
      have short : payload.length ≤ maxItem := (Chunk.refusal?_eq_none_iff.mp fits).1 payload rfl
      have pushed : Respects ctx holds (fun _ => True) (do
          ensure (!ctx.flags.has .minimalData || (Chunk.push header payload).isMinimal) .minimalData
          ensure (Chunk.push header payload).isWellFormed .badOpcode
          push payload) := by
        refine Keeps.bind (ensure_respects fun refused => ?_) fun _ _ =>
          (ensure_respects fun _ => rfl).bind fun _ _ => settled.push_respects (settled.short short)
        simpa [ScriptError.arises] using (Bool.or_eq_false_iff.mp refused).1
      have step : Respects ctx holds (fun _ => True) (effect ctx place (.push header payload)) :=
        Keeps.get.bind fun _ _ => Keeps.ite (fun _ => pushed) fun _ => Keeps.pure trivial
      exact step before held
    | op code => cases kind
    | raw bytes => cases kind

theorem effect_plain (stable : Stable ctx sound holds) (place : Nat) (plain : chunk.bracket? = none)
    (fits : chunk.refusal? ctx.flags = none) (held : holds before)
    (counts : sound (Number.encode before.stack.length)) :
    Ends holds (fun _ => True) (fun error => error.arises ctx = true)
      (effect ctx place chunk before) := by
  refine effect_ends stable.toSettled place fits held fun operation _ => ?_
  exact execute_respects stable place _ (Operation.ofOpcode_plain (Chunk.opcode_plain operation plain))
    (fun _ => Operation.natAbs_of_ofOpcode) held counts

/-- The step lemma for chunks that are not brackets, executed or not. -/
theorem advance_plain (stable : Stable ctx sound holds) (place : Nat) (plain : chunk.bracket? = none)
    (held : holds before) (counts : sound (Number.encode before.stack.length)) :
    Ends holds (fun _ => True) (fun error => error.arises ctx = true)
      (advance ctx place chunk before) := by
  rw [advance_eq]
  refine (skip_ends stable.toSettled held).bind (fun _ => And.left) fun _ middle kept fits => ?_
  have counts' : sound (Number.encode middle.stack.length) := kept.2 ▸ counts
  exact (effect_plain stable place plain fits kept.1 counts').bind (fun _ => id) fun _ last held _ =>
    limit_respects last held

end Machine

end ColorScript
