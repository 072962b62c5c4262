import ColorScript.Proofs.RunLockstep

/-! Items below the stack that a script is given. A script that does not ask how many items there
are cannot tell whether there are more of them: they can only break the limit of the stacks. -/
namespace ColorScript

private theorem Operation.ofOpcode_ne_depth {opcode : Opcode} (other : opcode ≠ Opcode.depth) :
    ofOpcode opcode ≠ .depth := by
  have each : ∀ opcode, opcode ≠ Opcode.depth → ofOpcode opcode ≠ .depth :=
    forall_byte (by decide +kernel)
  exact each opcode other

namespace Machine

/-- The second run has further items at the bottom of its stack, and everything else is compared. -/
def beneath (base : Stack) : View := { base, calls := true }

variable {ctx : Context} {base : Stack} {before before' after : State} {place : Nat} {chunk : Chunk}
  {chunks : List Chunk} {done : Unit}

private theorem beneath_relaxes (ctx : Context) (base : Stack) : (beneath base).Relaxes ctx ctx :=
  ⟨Rules.Relaxed.refl _,rfl,rfl,fun _ => rfl,fun _ => rfl⟩

theorem advance_excess (stepped : step ctx place chunk before = .ok done after)
    (excess : maxItems < after.stack.length + after.alt.length) :
    advance ctx place chunk before = .error .stackSize after := by
  have refused : decide (after.stack.length + after.alt.length ≤ maxItems) = false :=
    decide_eq_false (Nat.not_le.mpr excess)
  rw [advance,bind_of_success stepped,get_bind_apply,refused]
  rfl

-- The step lemma.
private theorem advance_beneath (blind : chunk.opcode ≠ Opcode.depth)
    (alike : (beneath base).Alike before before')
    (ok : advance ctx place chunk before = .ok done after) :
    (∃ after', advance ctx place chunk before' = .error .stackSize after') ∨
    ∃ after', advance ctx place chunk before' = .ok () after' ∧ (beneath base).Alike after after' := by
  have stepped := (advance_success_iff.mp ok).1
  have blind' : (beneath base).base = [] ∨ Operation.ofOpcode chunk.opcode ≠ .depth :=
    .inr (Operation.ofOpcode_ne_depth blind)
  obtain ⟨_,after',stepped',rfl,alike'⟩ :=
    step_lockstep (beneath_relaxes ctx base) place chunk blind' _ _ _ _ alike stepped
  by_cases within : after'.stack.length + after'.alt.length ≤ maxItems
  · exact .inr ⟨after',advance_success_iff.mpr ⟨stepped',within⟩,alike'⟩
  · exact .inl ⟨after',advance_excess stepped' (Nat.not_le.mp within)⟩

-- The run lemma.
private theorem advanceAll_beneath (blind : ∀ chunk ∈ chunks, chunk.opcode ≠ Opcode.depth)
    (alike : (beneath base).Alike before before')
    (ok : advanceAll ctx place chunks before = .ok done after) :
    (∃ after', advanceAll ctx place chunks before' = .error .stackSize after') ∨
    ∃ after', advanceAll ctx place chunks before' = .ok () after' ∧
      (beneath base).Alike after after' := by
  induction chunks generalizing place before before' with
  | nil =>
    cases ok
    exact .inr ⟨before',rfl,alike⟩
  | cons chunk rest ih =>
    obtain ⟨middle,stepped,ok⟩ := advanceAll_cons_success_iff.mp ok
    obtain ⟨first,others⟩ := List.forall_mem_cons.mp blind
    rcases advance_beneath first alike stepped with ⟨last,excess⟩ | ⟨middle',stepped',between⟩
    · exact .inl ⟨last,bind_of_failure excess _⟩
    · have following : advanceAll ctx place (chunk :: rest) before' =
          advanceAll ctx (place + 1) rest middle' := bind_of_success stepped' _
      rw [following]
      exact ih others between ok

theorem run_beneath (blind : ∀ chunk ∈ ctx.script, chunk.opcode ≠ Opcode.depth)
    (alike : (beneath base).Alike before before') (ok : run ctx before = .ok done after) :
    (∃ after', run ctx before' = .error .stackSize after') ∨
    ∃ after', run ctx before' = .ok () after' ∧ (beneath base).Alike after after' := by
  obtain ⟨size,ran,closed⟩ := run_success_iff.mp ok
  rcases advanceAll_beneath blind alike ran with ⟨last,excess⟩ | ⟨after',ran',alike'⟩
  · have sized : ensure (decide (ctx.script.size ≤ Script.maxSize)) .scriptSize before' =
        .ok () before' := ensure_success_iff.mpr ⟨decide_eq_true size,rfl⟩
    refine .inl ⟨last,?_⟩
    rw [run,bind_of_success sized,bind_of_failure excess]
  · have closed' : after'.flow = [] := alike'.flow.trans closed
    exact .inr ⟨after',run_success_iff.mpr ⟨size,ran',closed'⟩,alike'⟩

end Machine

namespace Session

/-- A script that succeeds on a stack, without an operation that tells how many items there are,
does the same with further items below the stack and leaves them there, unless it then has more
items than the stacks may hold. The oracle is asked the same questions in the same order. -/
theorem evaluate_beneath (rules : Rules) (script : Script) (redeem : Bool)
    (blind : ∀ chunk ∈ script, chunk.opcode ≠ Opcode.depth) (base : Stack)
    (before before' after : Session) (below : before'.stack = before.stack ++ base)
    (color : before'.color = before.color)
    (ok : evaluate rules script redeem before = .ok () after) :
    (∃ after', evaluate rules script redeem before' = .error (.failed .stackSize) after') ∨
    ∃ after' calls, evaluate rules script redeem before' = .ok () after' ∧
      after'.stack = after.stack ++ base ∧ after'.color = after.color ∧
      after.calls = before.calls ++ calls ∧ after'.calls = before'.calls ++ calls := by
  obtain ⟨state,ran,rfl⟩ := evaluate_success_iff.mp ok
  have alike : (Machine.beneath base).Alike before.start before'.start :=
    ⟨below,rfl,rfl,rfl,rfl,fun _ => color,fun _ => rfl⟩
  rcases Machine.run_beneath blind alike ran with ⟨last,excess⟩ | ⟨state',ran',alike'⟩
  · refine .inl ⟨before'.absorb (Journal.ofRun { rules with script, redeem } before'.start) last,?_⟩
    simp only [evaluate,excess]
  · refine .inr ⟨_,state.calls,evaluate_success_iff.mpr ⟨state',ran',rfl⟩,alike'.stack,
      alike'.color rfl,rfl,?_⟩
    exact congrArg (before'.calls ++ ·) (alike'.calls rfl)

/-- A roll and a check of one signature against one key, with two further items below the stack. -/
theorem evaluate_beneath_twoItems :
    ∃ after, evaluate ⟨Flags.mandatory,fun _ => true⟩ [.push [1] [2],.op 0x7a,.op 0xae] false
        { stack := [[2],[1],[1],[9],[],[7],[8]] } = .ok () after ∧
      after.stack = [[1],[7],[8]] ∧ after.calls.length = 1 := by
  have alone : succeeds (fun after => after.stack = [[1]] ∧ after.calls.length = 1) (evaluate
      ⟨Flags.mandatory,fun _ => true⟩ [.push [1] [2],.op 0x7a,.op 0xae] false
      { stack := [[2],[1],[1],[9],[]] }) = true := by decide +kernel
  have enough : succeeds (fun _ => true) (evaluate ⟨Flags.mandatory,fun _ => true⟩
      [.push [1] [2],.op 0x7a,.op 0xae] false { stack := [[2],[1],[1],[9],[],[7],[8]] }) = true := by
    decide +kernel
  obtain ⟨_,after,ok,fine⟩ := exists_of_succeeds alone
  obtain ⟨stack,asked⟩ := of_decide_eq_true fine
  rcases evaluate_beneath ⟨Flags.mandatory,fun _ => true⟩ [.push [1] [2],.op 0x7a,.op 0xae] false
      (by decide) [[7],[8]] { stack := [[2],[1],[1],[9],[]] }
      { stack := [[2],[1],[1],[9],[],[7],[8]] } after rfl rfl ok with ⟨_,excess⟩ | more
  · rw [excess] at enough
    cases enough
  · obtain ⟨after',calls,ok',stack',_,same,same'⟩ := more
    rw [stack] at stack'
    rw [same] at asked
    rw [← same'] at asked
    exact ⟨after',ok',stack',asked⟩

end Session

end ColorScript
