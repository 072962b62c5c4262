import ColorScript.Proofs.Charges
import ColorScript.Proofs.Codec
import ColorScript.Proofs.ItemSize
import ColorScript.Proofs.VerificationRuns

/-! The limits of the machine along a verification. They hold after every chunk that succeeds, and a
chunk that fails goes beyond the number of items only by the few that one operation adds. -/
namespace ColorScript

theorem Script.size_parse (bytes : Bytes) : (Script.parse bytes).size = bytes.length := by
  rw [← length_toBytes,toBytes_parse]

namespace Machine

variable {ctx : Context} {before after : State} {place : Nat} {chunk : Chunk} {chunks : List Chunk}
  {error : ScriptError}

private theorem advanceAll_final_items (ctx : Context) (place : Nat) (chunks : List Chunk)
    (within : before.Within) :
    (final (advanceAll ctx place chunks before)).Short ∧
      (final (advanceAll ctx place chunks before)).stack.length ≤ maxItems + 3 := by
  -- The limit holds before every chunk, so only the last one can go beyond it.
  induction chunks generalizing place before with
  | nil =>
    have few := within.items
    exact ⟨⟨within.stack,within.alt⟩,by change before.stack.length ≤ _; omega⟩
  | cons chunk rest ih =>
    rw [advanceAll]
    refine bind_final (motive := fun last : State => last.Short ∧ last.stack.length ≤ maxItems + 3) ?_ ?_
    · intro error middle failed
      have short := advance_short ctx place chunk within
      have more := (advance_affordable ctx ⟨place,chunk,before⟩).stack
      have few : before.stack.length ≤ maxItems := Nat.le_trans (Nat.le_add_right _ _) within.items
      rw [failed] at short
      rw [Visit.after,failed] at more
      exact ⟨short,Nat.le_trans more (Nat.add_le_add_right few 3)⟩
    · intro done middle stepped
      exact ih (place + 1) (advance_items within stepped)

theorem advanceAll_scriptSize : advanceAll ctx place chunks before ≠ .error .scriptSize after := by
  induction chunks generalizing place before with
  | nil => exact nofun
  | cons chunk rest ih =>
    intro failed
    rcases bind_failure failed with first | ⟨_,middle,_,failed⟩
    · rcases advance_error first with impossible | ⟨impossible,_⟩ | ⟨impossible,_⟩ <;> cases impossible
    · exact ih failed

theorem run_scriptSize (size : ctx.script.size ≤ Script.maxSize) :
    run ctx before ≠ .error .scriptSize after := by
  intro failed
  rw [run,decide_eq_true size] at failed
  rcases bind_failure failed with impossible | ⟨_,middle,_,failed⟩
  · cases impossible
  · rcases bind_failure failed with ran | ⟨_,last,_,closed⟩
    · exact advanceAll_scriptSize ran
    · obtain ⟨_,impossible,_⟩ := ensure_failure closed
      cases impossible

end Machine

/-- The limits of a run: of the items and of the count of operations after every chunk that succeeds,
and of the items where it ends. The script of a script digest is never too large. -/
structure Run.WithinLimits (run : Run) : Prop where
  items : ∀ passed rest state, run.ctx.script = passed ++ rest →
    Machine.advanceAll run.ctx 0 passed run.start = .ok () state → state.Within
  counted : ∀ passed rest state, run.ctx.script = passed ++ rest →
    Machine.advanceAll run.ctx 0 passed run.start = .ok () state →
      state.opCount = passed.countP Chunk.isCounted +
        ((Machine.visits run.ctx 0 passed run.start).map Visit.keyCount).sum ∧ state.opCount ≤ 201
  short : run.final.Short
  depth : run.final.stack.length ≤ 1003
  size : run.ctx.redeem = true → ∀ state, run.outcome ≠ .error .scriptSize state

namespace Run

variable {run : Run} {state : State}

private theorem withinLimits (within : run.start.Within) (fresh : run.start.opCount = 0)
    (size : run.ctx.redeem = true → run.ctx.script.size ≤ Script.maxSize) : run.WithinLimits := by
  have ended : run.final.Short ∧ run.final.stack.length ≤ Machine.maxItems + 3 := by
    rw [final,outcome,Machine.run_final]
    split
    · exact Machine.advanceAll_final_items run.ctx 0 run.ctx.script within
    · exact ⟨⟨within.stack,within.alt⟩,Nat.le_trans (Nat.le_add_right _ _)
        (Nat.le_trans within.items (Nat.le_add_right _ 3))⟩
  exact
    { items := fun passed rest state split ran => Machine.advanceAll_items within ran
      counted := fun passed rest state split ran => by
        have counted := Machine.advanceAll_opCount ran
        rw [fresh,Nat.zero_add] at counted
        exact ⟨counted.1,counted.2 (Nat.zero_le _)⟩
      short := ended.1
      depth := ended.2
      size := fun redeem state => Machine.run_scriptSize (size redeem) }

private theorem within_of_success (within : run.start.Within) (ok : run.outcome = .ok () state) :
    state.Within :=
  Machine.advanceAll_items within (Machine.run_success_iff.mp ok).2.1

end Run

namespace Session

variable {rules : Rules} {unlocking locking : Script} {unlocked : State}

private theorem unlockingRun_within (rules : Rules) (unlocking : Script) :
    (unlockingRun rules unlocking).start.Within :=
  ⟨Nat.zero_le _,nofun,nofun⟩

private theorem start_within (opened : (unlockingRun rules unlocking).outcome = .ok () unlocked) {stack : Stack}
    (left : stack <:+ unlocked.stack) (color : Option ColorId) : State.Within { stack, color } := by
  have within := Run.within_of_success (unlockingRun_within rules unlocking) opened
  have few : unlocked.stack.length ≤ Machine.maxItems := Nat.le_trans (Nat.le_add_right _ _) within.items
  exact ⟨Nat.le_trans left.length_le few,fun item member => within.stack item (left.subset member),nofun⟩

private theorem lockingRun_within (opened : (unlockingRun rules unlocking).outcome = .ok () unlocked)
    (locking : Script) : (lockingRun rules locking unlocked).start.Within :=
  start_within opened List.suffix_rfl unlocked.color

theorem runs_withinLimits {list : List Run} (phases : Phases rules unlocking locking list) :
    ∀ run ∈ list, run.WithinLimits := by
  have first : (unlockingRun rules unlocking).WithinLimits :=
    Run.withinLimits (unlockingRun_within rules unlocking) rfl nofun
  cases phases with
  | refused => exact nofun
  | unlocking => simpa using first
  | locking opened =>
    have second := Run.withinLimits (lockingRun_within opened locking) rfl nofun
    simpa using ⟨first,second⟩
  | @redeeming unlocked locked bytes rest opened closed pushes pays items =>
    have second := Run.withinLimits (lockingRun_within opened locking) rfl nofun
    have within := Run.within_of_success (unlockingRun_within rules unlocking) opened
    have short : bytes.length ≤ Machine.maxItem := within.stack bytes (items ▸ List.mem_cons_self)
    have size : (Script.parse bytes).size ≤ Script.maxSize := by
      rw [Script.size_parse]
      exact Nat.le_trans short (by decide)
    have left : rest <:+ unlocked.stack := items ▸ List.suffix_cons bytes rest
    have third : (redeemRun rules bytes rest locked.color).WithinLimits :=
      Run.withinLimits (start_within opened left locked.color) rfl fun _ => size
    simpa using ⟨first,second,third⟩

theorem last_stack {list : List Run} {motive : Stack → Prop} (none : motive [])
    (each : ∀ run ∈ list, motive run.final.stack) : motive ((list.map (·.final.stack)).getLastD []) := by
  rw [List.getLastD_eq_getLast?]
  cases last : (list.map (·.final.stack)).getLast? with
  | none => exact none
  | some stack =>
    obtain ⟨run,member,rfl⟩ := List.mem_map.mp (List.mem_of_getLast? last)
    exact each run member

/-- The limits hold along every run of a verification, and of the stack that it leaves. -/
theorem verify_withinLimits (rules : Rules) (unlocking locking : Script) (before : Session) :
    (∀ run ∈ runs rules unlocking locking, run.WithinLimits) ∧
    Follows (runs rules unlocking locking) { calls := before.calls, journal := before.journal }
      (final (verify rules unlocking locking before)) ∧
    (final (verify rules unlocking locking before)).stack.length ≤ 1003 ∧
    ∀ item ∈ (final (verify rules unlocking locking before)).stack, item.length ≤ 520 := by
  have limits := runs_withinLimits (runs_phases rules unlocking locking)
  have follows := verify_follows rules unlocking locking before
  refine ⟨limits,follows,?_⟩
  rw [follows.stack]
  refine last_stack (motive := fun stack => stack.length ≤ 1003 ∧ ∀ item ∈ stack, item.length ≤ 520) ?_ ?_
  · exact ⟨Nat.zero_le _,nofun⟩
  · intro run member
    exact ⟨(limits run member).depth,(limits run member).short.1⟩

/-- A skipped chunk and one key are counted besides the three operations that are executed. -/
theorem verify_withinLimits_skippedChunk :
    ∃ state, (unlockingRun ⟨Flags.standard,Oracle.never⟩ [.push [0] [],.op 0x63,.op 0x61,.op 0x68,
        .push [0] [],.push [0] [],.push [0] [],.op 0x51,.op 0xae]).outcome = .ok () state ∧
      state.Within ∧ state.opCount = 5 := by
  have limited := (verify_withinLimits ⟨Flags.standard,Oracle.never⟩ [.push [0] [],.op 0x63,.op 0x61,
    .op 0x68,.push [0] [],.push [0] [],.push [0] [],.op 0x51,.op 0xae] [] {}).1 _ List.mem_cons_self
  have fine : succeeds (fun _ => true) (unlockingRun ⟨Flags.standard,Oracle.never⟩ [.push [0] [],
      .op 0x63,.op 0x61,.op 0x68,.push [0] [],.push [0] [],.push [0] [],.op 0x51,.op 0xae]).outcome =
      true := by decide +kernel
  obtain ⟨_,state,ran,_⟩ := exists_of_succeeds fine
  have passed := (Machine.run_success_iff.mp ran).2.1
  have counted := (limited.counted _ [] state (List.append_nil _).symm passed).1
  exact ⟨state,ran,limited.items _ [] state (List.append_nil _).symm passed,
    counted.trans (by decide +kernel)⟩

end Session

end ColorScript
