import ColorScript.Proofs.Footprint
import ColorScript.Proofs.ScriptDigest
import ColorScript.Session.Runs

/-! A verification is its runs: whatever it leaves in the session comes from them, whether it accepts
or fails. -/
namespace ColorScript

/-- The entries of a run, with the one that announces the script of a script digest. -/
def Run.entries (run : Run) : List Entry :=
  (if run.ctx.redeem then [.redeeming run.ctx.script] else []) ++ Journal.ofRun run.ctx run.start

namespace Session

/-- What some runs, one after the other, leave in a session. -/
structure Follows (runs : List Run) (before after : Session) : Prop where
  stack : after.stack = (runs.map (·.final.stack)).getLastD before.stack
  calls : after.calls = before.calls ++ runs.flatMap (·.final.calls)
  journal : after.journal = before.journal ++ runs.flatMap Run.entries

namespace Follows

variable {runs runs' : List Run} {run : Run} {before middle after : Session}

theorem refl (before : Session) : Follows [] before before :=
  ⟨rfl,(List.append_nil _).symm,(List.append_nil _).symm⟩

theorem single (run : Run) (before : Session) :
    Follows [run] before (before.absorb run.entries run.final) := by
  refine ⟨rfl,?_,?_⟩ <;>
    · rw [List.flatMap_singleton]
      rfl

theorem cons (first : Follows [run] before middle) (others : Follows runs middle after) :
    Follows (run :: runs) before after := by
  refine ⟨?_,?_,?_⟩
  · simp only [others.stack,first.stack,List.map_cons,List.map_nil,List.getLastD_cons,List.getLastD_nil]
  · rw [others.calls,first.calls,List.flatMap_singleton,List.flatMap_cons,List.append_assoc]
  · rw [others.journal,first.journal,List.flatMap_singleton,List.flatMap_cons,List.append_assoc]

end Follows

variable {rules : Rules} {unlocking locking : Script} {before : Session}

theorem evaluate_final (rules : Rules) (script : Script) (redeem : Bool) (before : Session) :
    final (evaluate rules script redeem before) =
      before.absorb (Journal.ofRun { rules with script, redeem } before.start)
        (Run.mk { rules with script, redeem } before.start).final := by
  unfold evaluate Run.final Run.outcome
  dsimp only
  cases Machine.run { rules with script, redeem } before.start <;> rfl

theorem evaluate_of_failure (before : Session) {script : Script} {redeem : Bool} {error : ScriptError}
    {state : State}
    (failed : Machine.run { rules with script, redeem } before.start = .error error state) :
    evaluate rules script redeem before = .error (.failed error)
      (before.absorb (Journal.ofRun { rules with script, redeem } before.start) state) := by
  simp only [evaluate,failed]

theorem evaluate_of_success (before : Session) {script : Script} {redeem : Bool} {state : State}
    (ran : Machine.run { rules with script, redeem } before.start = .ok () state) :
    ∃ after, evaluate rules script redeem before = .ok () after ∧ after.stack = state.stack ∧
      after.color = state.color :=
  ⟨_,evaluate_success_iff.mpr ⟨state,ran,rfl⟩,rfl,rfl⟩

private theorem evaluate_follows (rules : Rules) (script : Script) (before : Session) :
    Follows [⟨{ rules with script, redeem := false },before.start⟩] before
      (final (evaluate rules script false before)) := by
  rw [evaluate_final]
  exact Follows.single _ before

private theorem requireTrueTop_looks : Looks requireTrueTop := Looks.get.bind fun _ => Looks.check _ _

private theorem tidy_looks (rules : Rules) : Looks (tidy rules) := by
  unfold tidy requireCleanStack
  split
  · split
    · exact Looks.get.bind fun _ => Looks.check _ _
    · exact Looks.throw _
  · exact Looks.pure ()

private theorem evaluateRedeem_follows (rules : Rules) (bytes : Bytes) (rest : Stack) (before : Session) :
    Follows [redeemRun rules bytes rest before.color] before
      (final (evaluateRedeem rules (bytes :: rest) before)) := by
  let start : Session := { before with
    stack := rest, journal := before.journal ++ [.redeeming (Script.parse bytes)] }
  have continued : evaluateRedeem rules (bytes :: rest) before =
      (evaluate rules (Script.parse bytes) true >>= fun _ => requireTrueTop) start := rfl
  rw [continued,Looks.final_bind fun _ => requireTrueTop_looks,evaluate_final]
  refine ⟨rfl,?_,?_⟩
  · rw [List.flatMap_singleton]
    rfl
  · rw [List.flatMap_singleton]
    exact List.append_assoc _ _ _

private theorem redeem_follows (rules : Rules) (unlocking locking : Script) {unlocked locked : State}
    {opened closed : Session} (stack : opened.stack = unlocked.stack) (color : closed.color = locked.color)
    (done : evaluate rules locking false opened = .ok () closed)
    (truthy : (locked.stack.peek? 0).any Number.isTrue = true) :
    Follows (redeemRuns rules unlocking locking unlocked locked) closed
      (final (redeem rules unlocking locking unlocked.stack closed)) := by
  unfold redeem redeemRuns
  rw [truthy,Bool.true_and]
  cases pays : rules.flags.has .p2sh && paysToScript locking with
  | false => exact Follows.refl closed
  | true =>
    rw [if_pos rfl,Bool.true_and]
    cases pushes : unlocking.isPushOnly with
    | false => exact Follows.refl closed
    | true =>
      -- The locking script compares an item, so it only succeeds if there is one.
      obtain ⟨expected,commits,_⟩ := committed?_of_paysToScript (Bool.and_eq_true_iff.mp pays).2
      obtain ⟨top,rest,onTop,_⟩ :=
        evaluate_committed (Bool.and_eq_true_iff.mp pays).2 commits done
      rw [← stack,onTop,if_pos rfl]
      have redeemed := evaluateRedeem_follows rules top rest closed
      rw [color] at redeemed
      exact redeemed

private theorem later_follows (rules : Rules) (unlocking locking : Script) {unlocked : State} {opened : Session}
    (stack : opened.stack = unlocked.stack) (color : opened.color = unlocked.color) :
    Follows (laterRuns rules unlocking locking unlocked) opened
      (final ((do
        evaluate rules locking false
        requireTrueTop
        redeem rules unlocking locking unlocked.stack : Action Unit) opened)) := by
  have start : lockingRun rules locking unlocked =
      ⟨{ rules with script := locking, redeem := false },opened.start⟩ := by
    rw [lockingRun,← stack,← color]
    rfl
  have closing := evaluate_follows rules locking opened
  rw [← start] at closing
  unfold laterRuns
  dsimp only
  cases ran : (lockingRun rules locking unlocked).outcome with
  | error error locked =>
    rw [start] at ran
    have failed := evaluate_of_failure opened ran
    rw [failed] at closing
    rw [bind_of_failure failed]
    exact closing
  | ok done locked =>
    rw [start] at ran
    obtain ⟨closed,succeeded,stack',color'⟩ := evaluate_of_success opened ran
    rw [succeeded] at closing
    rw [bind_of_success succeeded]
    refine closing.cons ?_
    change Follows (redeemRuns rules unlocking locking unlocked locked) closed _
    cases truthy : (locked.stack.peek? 0).any Number.isTrue with
    | false =>
      have refused : requireTrueTop closed = .error (.failed .evalFalse) closed := by
        rw [requireTrueTop,get_bind_apply,stack',truthy]
        rfl
      have none : redeemRuns rules unlocking locking unlocked locked = [] := by
        rw [redeemRuns,truthy]
        rfl
      rw [none,bind_of_failure refused]
      exact Follows.refl closed
    | true =>
      have accepted : requireTrueTop closed = .ok () closed :=
        requireTrueTop_success_iff.mpr ⟨stack' ▸ truthy,rfl⟩
      rw [bind_of_success accepted]
      exact redeem_follows rules unlocking locking stack color' succeeded truthy

private theorem satisfy_follows (rules : Rules) (unlocking locking : Script) (calls : List Call)
    (journal : List Entry) :
    Follows (runs rules unlocking locking) { calls, journal }
      (final (satisfy rules unlocking locking { calls, journal })) := by
  have cut : (unlock rules unlocking locking >>= redeem rules unlocking locking) = (do
      ensure (!rules.flags.has .sigPushOnly || unlocking.isPushOnly) .sigPushOnly
      evaluate rules unlocking false
      let unlocked := (← get).stack
      evaluate rules locking false
      requireTrueTop
      redeem rules unlocking locking unlocked) := by
    simp only [unlock,bind_assoc,pure_bind]
  rw [satisfy_eq,← bind_assoc,Looks.final_bind fun _ => tidy_looks rules,cut]
  unfold runs
  dsimp only
  cases allowed : !rules.flags.has .sigPushOnly || unlocking.isPushOnly with
  | false => exact Follows.refl _
  | true =>
    have passed : (ensure true .sigPushOnly : Action Unit) { calls, journal } =
        .ok () { calls, journal } := rfl
    rw [if_pos rfl,bind_of_success passed]
    have opening := evaluate_follows rules unlocking { calls, journal }
    cases ran : (unlockingRun rules unlocking).outcome with
    | error error unlocked =>
      have failed := evaluate_of_failure { calls, journal } ran
      rw [failed] at opening
      rw [bind_of_failure failed]
      exact opening
    | ok done unlocked =>
      obtain ⟨opened,succeeded,stack,color⟩ := evaluate_of_success { calls, journal } ran
      rw [succeeded] at opening
      rw [bind_of_success succeeded,get_bind_apply,stack]
      exact opening.cons (later_follows rules unlocking locking stack color)

/-- A verification follows its runs from an empty stack on. -/
theorem verify_follows (rules : Rules) (unlocking locking : Script) (before : Session) :
    Follows (runs rules unlocking locking) { calls := before.calls, journal := before.journal }
      (final (verify rules unlocking locking before)) := by
  have satisfied := satisfy_follows rules unlocking locking before.calls before.journal
  unfold verify
  split
  next ok =>
    rw [ok] at satisfied
    exact ⟨satisfied.stack,satisfied.calls,satisfied.journal⟩
  next failed =>
    rw [failed] at satisfied
    exact ⟨satisfied.stack,satisfied.calls,satisfied.journal⟩
  next failed =>
    rw [failed] at satisfied
    exact satisfied

/-- The runs of a verification, as far as it gets. -/
inductive Phases (rules : Rules) (unlocking locking : Script) : List Run → Prop
  | refused : Phases rules unlocking locking []
  | unlocking : Phases rules unlocking locking [unlockingRun rules unlocking]
  | locking {unlocked : State} (opened : (unlockingRun rules unlocking).outcome = .ok () unlocked) :
      Phases rules unlocking locking
        [unlockingRun rules unlocking,lockingRun rules locking unlocked]
  | redeeming {unlocked locked : State} {bytes : Bytes} {rest : Stack}
      (opened : (unlockingRun rules unlocking).outcome = .ok () unlocked)
      (closed : (lockingRun rules locking unlocked).outcome = .ok () locked)
      (pushes : unlocking.isPushOnly = true) (pays : paysToScript locking = true)
      (items : unlocked.stack = bytes :: rest) :
      Phases rules unlocking locking
        [unlockingRun rules unlocking,lockingRun rules locking unlocked,
          redeemRun rules bytes rest locked.color]

private theorem redeemRuns_cases (rules : Rules) (unlocking locking : Script) (unlocked locked : State) :
    redeemRuns rules unlocking locking unlocked locked = [] ∨
      ∃ bytes rest, unlocking.isPushOnly = true ∧ paysToScript locking = true ∧
        unlocked.stack = bytes :: rest ∧ redeemRuns rules unlocking locking unlocked locked =
          [redeemRun rules bytes rest locked.color] := by
  unfold redeemRuns
  split
  next chosen =>
    simp only [Bool.and_eq_true] at chosen
    obtain ⟨⟨_,_,pays⟩,pushes⟩ := chosen
    cases unlocked.stack with
    | nil => exact .inl rfl
    | cons bytes rest => exact .inr ⟨bytes,rest,pushes,pays,rfl,rfl⟩
  next => exact .inl rfl

theorem runs_phases (rules : Rules) (unlocking locking : Script) :
    Phases rules unlocking locking (runs rules unlocking locking) := by
  unfold runs
  dsimp only
  split
  next =>
    cases opened : (unlockingRun rules unlocking).outcome with
    | error error unlocked => exact .unlocking
    | ok done unlocked =>
      dsimp only [laterRuns]
      cases closed : (lockingRun rules locking unlocked).outcome with
      | error error locked => exact .locking opened
      | ok done locked =>
        dsimp only
        rcases redeemRuns_cases rules unlocking locking unlocked locked with
          none | ⟨bytes,rest,pushes,pays,items,one⟩
        · rw [none]
          exact .locking opened
        · rw [one]
          exact .redeeming opened closed pushes pays items
  next => exact .refused

end Session

end ColorScript
