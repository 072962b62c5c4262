import ColorScript.Proofs.Charges
import ColorScript.Proofs.VerificationRuns

/-! The use of the oracle by whole runs. Every question is asked by a chunk that the run comes to,
after its checks, and a run asks no more questions than it counts operations. -/
namespace ColorScript

/-- The questions of a run are those of the chunks that it comes to, in order. The oracle answers
them, and each was checked and is about the items that its chunk found on top of the stack. -/
structure Run.AsksWellFormed (run : Run) : Prop where
  calls : run.final.calls = run.visits.flatMap (Visit.calls run.ctx)
  formed : ∀ visit ∈ run.visits, ∀ call ∈ visit.calls run.ctx,
    call.answer = run.ctx.oracle call.query ∧ call.query.WellFormed run.ctx.flags ∧
      visit.Asks run.ctx call.query

/-- A run that starts afresh, as every run of a session does. -/
structure Run.Fresh (run : Run) : Prop where
  opCount : run.start.opCount = 0
  codeStart : run.start.codeStart = 0
  calls : run.start.calls = []

theorem Run.fresh (ctx : Context) (stack : Stack) (color : Option ColorId) :
    Run.Fresh ⟨ctx,{ stack, color }⟩ := ⟨rfl,rfl,rfl⟩

namespace Run

variable {run : Run}

private theorem final_calls (run : Run) :
    run.final.calls = run.start.calls ++ run.visits.flatMap (Visit.calls run.ctx) := by
  rw [final,outcome,Machine.run_final,visits]
  split
  · exact Machine.advanceAll_calls run.ctx 0 run.ctx.script run.start
  · exact (List.append_nil _).symm

private theorem visits_calls_length (run : Run) :
    run.start.opCount + (run.visits.flatMap (Visit.calls run.ctx)).length ≤ run.final.opCount ∧
      (run.start.opCount ≤ Machine.maxOps →
        run.start.opCount + (run.visits.flatMap (Visit.calls run.ctx)).length ≤ Machine.maxOps) := by
  rw [final,outcome,Machine.run_final,visits]
  split
  · exact Machine.advanceAll_calls_length run.ctx 0 run.ctx.script run.start
  · exact ⟨Nat.le_refl _,id⟩

private theorem Fresh.calls_length (fresh : run.Fresh) :
    run.final.calls.length ≤ run.final.opCount ∧ run.final.calls.length ≤ 201 := by
  obtain ⟨counted,limited⟩ := run.visits_calls_length
  have start : run.start.opCount ≤ Machine.maxOps := by
    rw [fresh.opCount]
    exact Nat.zero_le _
  have limited := limited start
  rw [fresh.opCount,Nat.zero_add] at counted limited
  rw [final_calls,fresh.calls,List.nil_append]
  exact ⟨counted,limited⟩

theorem Fresh.asksWellFormed (fresh : run.Fresh) : run.AsksWellFormed := by
  refine ⟨?_,fun visit _ => (Machine.advance_affordable run.ctx visit).asked⟩
  rw [final_calls,fresh.calls,List.nil_append]

end Run

namespace Session

variable {rules : Rules} {unlocking locking : Script} {unlocked locked : State} {list : List Run}

theorem runs_fresh (phases : Phases rules unlocking locking list) :
    ∀ run ∈ list, run.Fresh ∧ run.ctx.toRules = rules := by
  cases phases <;> simp [unlockingRun,lockingRun,redeemRun,Run.fresh]

private theorem unlockingRun_unasked (opened : (unlockingRun rules unlocking).outcome = .ok () unlocked)
    (pushes : unlocking.isPushOnly = true) : (unlockingRun rules unlocking).final.calls = [] := by
  obtain ⟨stack,rfl⟩ := Machine.advanceAll_pushOnly pushes (Machine.run_success_iff.mp opened).2.1
  rw [Run.final,opened]
  rfl

private theorem lockingRun_unasked (closed : (lockingRun rules locking unlocked).outcome = .ok () locked)
    (pays : paysToScript locking = true) : (lockingRun rules locking unlocked).final.calls = [] := by
  obtain ⟨digest,shape⟩ := paysToScript_iff.mp pays
  have ran := (Machine.run_success_iff.mp closed).2.1
  rw [Run.final,closed]
  rcases shape with rfl | ⟨color,rfl⟩
  · obtain ⟨top,rest,_,_,rfl⟩ :=
      (Machine.advanceAll_p2sh_success_iff rfl (Nat.le_of_ble_eq_true rfl)).mp ran
    rfl
  · obtain ⟨_,_,_,_,ran⟩ := (Machine.advanceAll_withColor_success_iff rfl).mp ran
    obtain ⟨top,rest,_,_,rfl⟩ :=
      (Machine.advanceAll_p2sh_success_iff rfl (Nat.le_of_ble_eq_true rfl)).mp ran
    rfl

private theorem runs_unasked (phases : Phases rules unlocking locking list) {run : Run} (member : run ∈ list)
    (redeems : run.ctx.redeem = true) :
    ∀ other ∈ list, other.ctx.redeem = false → other.final.calls = [] := by
  cases phases with
  | refused => cases member
  | unlocking =>
    obtain rfl := List.mem_singleton.mp member
    cases redeems
  | locking opened =>
    simp only [List.mem_cons,List.not_mem_nil,or_false] at member
    rcases member with rfl | rfl
    · cases redeems
    · cases redeems
  | redeeming opened closed pushes pays items =>
    have first := unlockingRun_unasked opened pushes
    have second := lockingRun_unasked closed pays
    simp [first,second,redeemRun]

private theorem runs_calls_length (phases : Phases rules unlocking locking list) :
    (list.flatMap (·.final.calls)).length ≤ 402 := by
  -- Of three runs only the last one asks.
  have few (run : Run) (member : run ∈ list) : run.final.calls.length ≤ 201 :=
    (runs_fresh phases run member).1.calls_length.2
  cases phases with
  | refused => exact Nat.zero_le _
  | unlocking =>
    have first := few _ List.mem_cons_self
    rw [List.flatMap_singleton]
    omega
  | locking opened =>
    have first := few _ List.mem_cons_self
    have second := few _ (List.mem_cons_of_mem _ List.mem_cons_self)
    rw [List.flatMap_cons,List.flatMap_singleton,List.length_append]
    omega
  | redeeming opened closed pushes pays items =>
    have first := unlockingRun_unasked opened pushes
    have second := lockingRun_unasked closed pays
    have third := few _ (List.mem_cons_of_mem _ (List.mem_cons_of_mem _ List.mem_cons_self))
    rw [List.flatMap_cons,List.flatMap_cons,List.flatMap_singleton,first,second,List.nil_append,
      List.nil_append]
    omega

/-- A run asks no more than it counts, and a verification no more than two runs may. If the script of
a script digest is run, nothing was asked before. -/
theorem verify_bounded_calls (rules : Rules) (unlocking locking : Script) (before : Session) :
    (∀ run ∈ runs rules unlocking locking,
      run.final.calls.length ≤ run.final.opCount ∧ run.final.calls.length ≤ 201) ∧
    Follows (runs rules unlocking locking) { calls := before.calls, journal := before.journal }
      (final (verify rules unlocking locking before)) ∧
    (∃ calls, (final (verify rules unlocking locking before)).calls = before.calls ++ calls ∧
      calls.length ≤ 402) ∧
    ∀ run ∈ runs rules unlocking locking, run.ctx.redeem = true →
      ∀ other ∈ runs rules unlocking locking, other.ctx.redeem = false → other.final.calls = [] := by
  have phases := runs_phases rules unlocking locking
  have follows := verify_follows rules unlocking locking before
  refine ⟨?_,follows,⟨_,follows.calls,runs_calls_length phases⟩,?_⟩
  · intro run member
    exact (runs_fresh phases run member).1.calls_length
  · intro run member redeems
    exact runs_unasked phases member redeems

/-- One signature is tried on two keys, which are charged for. -/
theorem verify_bounded_calls_oneOfTwo :
    (unlockingRun ⟨Flags.single .nullDummy,Oracle.never⟩ [.push [0] [],.push [1] [9],.op 0x51,
      .push [1] [2],.push [1] [3],.op 0x52,.op 0xae]).final.calls.length = 2 ∧
    2 ≤ (unlockingRun ⟨Flags.single .nullDummy,Oracle.never⟩ [.push [0] [],.push [1] [9],.op 0x51,
      .push [1] [2],.push [1] [3],.op 0x52,.op 0xae]).final.opCount := by
  have asked : (unlockingRun ⟨Flags.single .nullDummy,Oracle.never⟩ [.push [0] [],.push [1] [9],
      .op 0x51,.push [1] [2],.push [1] [3],.op 0x52,.op 0xae]).final.calls.length = 2 := by
    decide +kernel
  have bounded := (verify_bounded_calls ⟨Flags.single .nullDummy,Oracle.never⟩ [.push [0] [],
    .push [1] [9],.op 0x51,.push [1] [2],.push [1] [3],.op 0x52,.op 0xae] [] {}).1 _ List.mem_cons_self
  refine ⟨asked,?_⟩
  rw [← asked]
  exact bounded.1

/-- Only well-formed questions reach the oracle, in the run of an evaluation and in every run of a
verification. -/
theorem calls_wellFormed (rules : Rules) :
    (∀ script redeem before, ∃ run : Run, run = ⟨{ rules with script, redeem },before.start⟩ ∧
      (final (evaluate rules script redeem before)).calls = before.calls ++ run.final.calls ∧
      run.AsksWellFormed) ∧
    ∀ unlocking locking before,
      Follows (runs rules unlocking locking) { calls := before.calls, journal := before.journal }
        (final (verify rules unlocking locking before)) ∧
      ∀ run ∈ runs rules unlocking locking, run.ctx.toRules = rules ∧ run.AsksWellFormed := by
  refine ⟨?_,?_⟩
  · intro script redeem before
    have fresh : (Run.mk { rules with script, redeem } before.start).Fresh := Run.fresh _ _ _
    refine ⟨_,rfl,?_,fresh.asksWellFormed⟩
    rw [evaluate_final]
    rfl
  · intro unlocking locking before
    refine ⟨verify_follows rules unlocking locking before,fun run member => ?_⟩
    obtain ⟨fresh,same⟩ := runs_fresh (runs_phases rules unlocking locking) run member
    exact ⟨same,fresh.asksWellFormed⟩

/-- A lock time of one is asked for where the flag for it is set. -/
theorem calls_wellFormed_lockTime :
    (final (evaluate ⟨Flags.single .checkLockTimeVerify,Oracle.never⟩ [.op 0x51,.op 0xb1] false {})).calls =
      [⟨.lockTime 1,false⟩] ∧
    Query.WellFormed (Flags.single .checkLockTimeVerify) (.lockTime 1) := by
  have asked : (final (evaluate ⟨Flags.single .checkLockTimeVerify,Oracle.never⟩ [.op 0x51,.op 0xb1]
      false {})).calls = [⟨.lockTime 1,false⟩] := by decide +kernel
  obtain ⟨run,rfl,same,formed⟩ :=
    (calls_wellFormed ⟨Flags.single .checkLockTimeVerify,Oracle.never⟩).1 [.op 0x51,.op 0xb1] false {}
  have recorded := same.symm.trans asked
  rw [List.nil_append,formed.calls] at recorded
  have member : (⟨.lockTime 1,false⟩ : Call) ∈ _ := recorded ▸ List.mem_cons_self
  obtain ⟨visit,ofVisits,member⟩ := List.mem_flatMap.mp member
  exact ⟨asked,(formed.formed visit ofVisits _ member).2.1⟩

end Session

end ColorScript
