import ColorScript.Proofs.Branches
import ColorScript.Proofs.Codec
import ColorScript.Proofs.Verification

/-! The form of scripts that succeed. It is checked along the run, but holds of the script as it is
written, executed or not: the limits, the opcodes that are refused, the balance of conditionals,
and that nothing at the end of the bytes is cut short. -/
namespace ColorScript

/-- What a script must be like to succeed at all under some flags. -/
structure Script.WellFormed (flags : Flags) (script : Script) : Prop where
  size : script.size ≤ 10000
  payloads : ∀ chunk ∈ script, ∀ payload, chunk.payload? = some payload → payload.length ≤ 520
  enabled : ∀ chunk ∈ script, chunk.isPush = false →
    chunk.opcode.isDisabled = false ∧ chunk.opcode ≠ 0x65 ∧ chunk.opcode ≠ 0x66
  separators : flags.has .constScriptCode = true →
    ∀ chunk ∈ script, chunk.isPush = false → chunk.opcode ≠ Opcode.codeSeparator
  counted : script.countP Chunk.isCounted ≤ 201
  balanced : script.isBalanced = true

private theorem Opcode.operation_of_undefined {opcode : Opcode} (undefined : isDefined opcode = false) :
    Operation.ofOpcode opcode = .invalid ∧ bracket? opcode = none := by
  have each : ∀ opcode, isDefined opcode = false →
      Operation.ofOpcode opcode = .invalid ∧ bracket? opcode = none := forall_byte (by decide +kernel)
  exact each opcode undefined

theorem Chunk.Unfinished.bracket? {chunk : Chunk} (unfinished : chunk.Unfinished) :
    chunk.bracket? = none := by
  cases unfinished with
  | payload | header => rfl
  | raw first rest undefined => exact (Opcode.operation_of_undefined undefined).2

namespace Machine

variable {ctx : Context} {before after : State} {place : Nat} {chunk : Chunk} {chunks : List Chunk}
  {done : Unit}

-- The step lemma: a chunk that succeeds was within the limit of operations and not refused.
private theorem advance_screened (ok : advance ctx place chunk before = .ok done after) :
    (chunk.isCounted = true → before.opCount + 1 ≤ maxOps) ∧ chunk.refusal? ctx.flags = none := by
  rw [advance_eq] at ok
  obtain ⟨_,middle,skipped,_⟩ := bind_success _ _ _ _ _ ok
  obtain ⟨room,fits,_⟩ := skip_success_iff.mp skipped
  exact ⟨room,fits⟩

private theorem advanceAll_screened (ok : advanceAll ctx place chunks before = .ok done after) :
    ∀ chunk ∈ chunks, chunk.refusal? ctx.flags = none := by
  induction chunks generalizing place before with
  | nil => exact fun _ member => nomatch member
  | cons chunk rest ih =>
    obtain ⟨middle,stepped,ok⟩ := advanceAll_cons_success_iff.mp ok
    exact List.forall_mem_cons.mpr ⟨(advance_screened stepped).2,ih ok⟩

-- The run lemma for the limit of operations.
private theorem advanceAll_counted {n : Nat} (ok : advanceAll ctx place chunks before = .ok done after)
    (counted : n ≤ before.opCount) (bound : n ≤ maxOps) :
    n + chunks.countP Chunk.isCounted ≤ maxOps := by
  -- Only a lower bound is kept along the run, since keys are counted besides chunks.
  induction chunks generalizing place before n with
  | nil => exact bound
  | cons chunk rest ih =>
    obtain ⟨middle,stepped,ok⟩ := advanceAll_cons_success_iff.mp ok
    have room := (advance_screened stepped).1
    have more := (advance_turns stepped).2
    rw [List.countP_cons]
    cases kind : chunk.isCounted with
    | true =>
      have more' : before.opCount + 1 ≤ middle.opCount := by
        simpa [State.counting,kind] using more
      have rest := ih ok (n := n + 1) (by omega) (by have := room kind; omega)
      simp only [if_true]
      omega
    | false =>
      have more' : before.opCount ≤ middle.opCount := by simpa [State.counting,kind] using more
      exact ih ok (by omega) bound

theorem advance_unfinished (unfinished : chunk.Unfinished) (outside : before.flow = []) :
    advance ctx place chunk before ≠ .ok done after := by
  intro ok
  cases chunk with
  | op code => cases unfinished
  | push header payload =>
    obtain ⟨_,_,whole,_⟩ := (advance_push_success_iff outside).mp ok
    cases whole.symm.trans (unfinished.not_isWellFormed rfl)
  | raw bytes =>
    cases unfinished with
    | raw first rest undefined =>
      have executing : State.executing (before.counting [.raw (first :: rest)]) = true := by
        change before.flow.all id = true
        rw [outside]
        rfl
      rw [advance_eq,effect_operation ctx place rfl] at ok
      obtain ⟨_,middle,skipped,ok⟩ := bind_success _ _ _ _ _ ok
      obtain ⟨_,_,rfl⟩ := skip_success_iff.mp skipped
      obtain ⟨_,_,executed,_⟩ := bind_success _ _ _ _ _ ok
      rw [get_bind_apply,State.reaches,executing,Bool.true_or,if_pos rfl] at executed
      have invalid : Operation.ofOpcode (Chunk.raw (first :: rest)).opcode = .invalid :=
        (Opcode.operation_of_undefined undefined).1
      rw [invalid] at executed
      cases executed

private theorem advanceAll_complete (canonical : Script.Canonical chunks)
    (ok : advanceAll ctx place chunks before = .ok done after) (closed : after.flow = []) :
    ∀ chunk ∈ chunks, chunk.Complete := by
  induction canonical generalizing place before with
  | nil => exact fun _ member => nomatch member
  | last chunk unfinished =>
    obtain ⟨middle,stepped,ended⟩ := advanceAll_cons_success_iff.mp ok
    cases ended
    -- The last chunk has opened and closed nothing, so it stood outside of all branches as well.
    have same := Chunk.turns_plain unfinished.bracket? (advance_turns stepped).1
    have outside : before.flow = [] := same.symm.trans closed
    exact absurd stepped (advance_unfinished unfinished outside)
  | cons chunk rest complete canonical ih =>
    obtain ⟨middle,stepped,ok⟩ := advanceAll_cons_success_iff.mp ok
    exact List.forall_mem_cons.mpr ⟨complete,ih ok⟩

theorem run_unbalanced (failed : run ctx before = .error .unbalancedConditional after)
    (outside : before.flow = []) : ctx.script.isBalanced = false := by
  refine decide_eq_false fun balanced => ?_
  rw [run] at failed
  rcases bind_failure failed with excess | ⟨_,start,passed,run⟩
  · obtain ⟨_,impossible,_⟩ := ensure_failure excess
    cases impossible
  have same : start = before := (ensure_success_iff.mp passed).2
  rw [same] at run
  rcases bind_failure run with unbalanced | ⟨_,last,ran,opened⟩
  · have depth := advanceAll_unbalanced unbalanced
    rw [outside,List.length_nil,balanced] at depth
    cases depth
  · have depth := advanceAll_depth ran
    rw [outside,List.length_nil,balanced] at depth
    have closed : last.flow = [] := List.length_eq_zero_iff.mp (Option.some.inj depth).symm
    rw [get_bind_apply,closed] at opened
    cases opened

end Machine

namespace Session

variable {rules : Rules} {script : Script} {redeem : Bool} {before after : Session}

private theorem wellFormed_of_success (ok : evaluate rules script redeem before = .ok () after) :
    script.WellFormed rules.flags ∧
      (script.Canonical → ∀ chunk ∈ script, chunk.Complete) := by
  obtain ⟨state,ran,rfl⟩ := evaluate_success_iff.mp ok
  obtain ⟨size,ran,closed⟩ := Machine.run_success_iff.mp ran
  have screened := Machine.advanceAll_screened ran
  have form (chunk : Chunk) (member : chunk ∈ script) :=
    Chunk.refusal?_eq_none_iff.mp (screened chunk member)
  have counted : 0 + script.countP Chunk.isCounted ≤ Machine.maxOps :=
    Machine.advanceAll_counted ran (Nat.zero_le _) (Nat.zero_le _)
  have depth : script.depthAfter? 0 = some state.flow.length := Machine.advanceAll_depth ran
  refine ⟨?_,fun canonical => Machine.advanceAll_complete canonical ran closed⟩
  exact
    { size
      payloads := fun chunk member => (form chunk member).1
      enabled := fun chunk member operation =>
        have ⟨enabled,first,second,_⟩ := (form chunk member).2 operation
        ⟨enabled,first,second⟩
      separators := fun strict chunk member operation =>
        ((form chunk member).2 operation).2.2.2 strict
      counted := Nat.zero_add (script.countP Chunk.isCounted) ▸ counted
      balanced := by
        rw [closed] at depth
        exact decide_eq_true depth }

private theorem unbalanced_of_failure
    (failed : evaluate rules script redeem before = .error (.failed .unbalancedConditional) after) :
    script.isBalanced = false := by
  obtain ⟨state,ran⟩ := evaluate_failure failed
  exact Machine.run_unbalanced ran rfl

/-- A script that succeeds is well-formed as it is written, also where it is not executed. If it
was read from bytes, nothing is cut short at their end. And a run only blames the balance of
conditionals if they are not balanced. -/
theorem evaluate_wellFormed (rules : Rules) (script : Script) (redeem : Bool) (before : Session) :
    (∀ after, evaluate rules script redeem before = .ok () after →
      script.WellFormed rules.flags ∧
      ∀ bytes, script = Script.parse bytes → ∀ chunk ∈ script, chunk.Complete) ∧
    ∀ after, evaluate rules script redeem before = .error (.failed .unbalancedConditional) after →
      script.isBalanced = false := by
  refine ⟨?_,fun after => unbalanced_of_failure⟩
  intro after ok
  obtain ⟨formed,complete⟩ := wellFormed_of_success ok
  refine ⟨formed,?_⟩
  rintro bytes rfl
  exact complete (Script.canonical_parse bytes)

/-- A script with an empty part that is not taken, and one that closes no branch. -/
theorem evaluate_wellFormed_emptyPart :
    Script.WellFormed Flags.standard (Script.parse [0x00,0x63,0x67,0x51,0x68]) ∧
    (∀ chunk ∈ Script.parse [0x00,0x63,0x67,0x51,0x68], chunk.Complete) ∧
    Script.isBalanced [.op Opcode.endIf] = false := by
  have parsed : Script.parse [0x00,0x63,0x67,0x51,0x68] =
      [.push [0x00] [],.op 0x63,.op 0x67,.op 0x51,.op 0x68] := by decide +kernel
  have succeeds : ∃ after, evaluate ⟨Flags.standard,Oracle.never⟩
      (Script.parse [0x00,0x63,0x67,0x51,0x68]) false {} = .ok () after := by
    rw [parsed]
    exact ⟨_,rfl⟩
  obtain ⟨after,ok⟩ := succeeds
  have formed := (evaluate_wellFormed ⟨Flags.standard,Oracle.never⟩ _ false {}).1 after ok
  refine ⟨formed.1,formed.2 _ rfl,?_⟩
  exact (evaluate_wellFormed ⟨Flags.standard,Oracle.never⟩ [.op Opcode.endIf] false {}).2 _ rfl

end Session

end ColorScript
