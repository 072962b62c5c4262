import ColorScript.Checked.Session
import ColorScript.Proofs.Faultless.Run
import ColorScript.Proofs.VerificationRuns

/-! Sessions do not fault, but for the one assertion. What a run leaves fits in memory for the next one,
and the lines of the journal can always be written. -/
namespace ColorScript

/-- A stack of a session that fits in memory. -/
structure Session.Addressable (session : Session) : Prop where
  stack : session.stack.length < 2 ^ 63
  items : ∀ item ∈ session.stack, item.Addressable

namespace Checked

theorem scriptText_eq (script : Script) : scriptText script = .ok script.text := by
  rw [scriptText,funext text_eq]
  exact congrArg (· >>= _) (List.mapM_pure (m := Checked))

private theorem line_eq (entry : Entry) : line entry = .ok entry.line := by
  cases entry with
  | executing place chunk depth | failed place chunk error =>
    rw [line,text_eq]
    rfl
  | tooLarge size | openBranches count => rfl
  | redeeming script =>
    rw [line,scriptText_eq]
    rfl

private theorem paysToScript_eq (script : Script) : paysToScript script = .ok (Session.paysToScript script) := by
  rw [paysToScript,isColoredP2SH_eq,Session.paysToScript]
  cases script.isP2SH <;> rfl

end Checked

namespace Session

variable {rules : Rules} {unlocking locking script : Script} {before after : Session}

theorem Addressable.start (memory : before.Addressable) : before.start.Addressable :=
  ⟨memory.stack,memory.items,Nat.zero_le _,nofun,Nat.zero_le _⟩

private theorem evaluate_addressable {redeem : Bool} (memory : before.Addressable)
    (ok : evaluate rules script redeem before = .ok () after) : after.Addressable := by
  obtain ⟨state,ran,rfl⟩ := evaluate_success_iff.mp ok
  have within := (Machine.run_success_iff.mp ran).2.1
  have fits := Machine.advanceAll_preserves
    (fun _ _ _ _ stepped memory => Machine.advance_addressable memory stepped) memory.start within
  exact ⟨fits.stack,fits.items⟩

end Session

namespace GuardedSession

open Guarded

variable {rules : Rules} {unlocking locking script : Script} {before : Session}

theorem evaluate_agrees (fits : script.Addressable) (memory : before.Addressable) (redeem : Bool) :
    Agrees (evaluate rules script redeem) (Session.evaluate rules script redeem) before := by
  let ctx : Context := { rules with script, redeem }
  have ran : GuardedMachine.run ctx before.start = .ok (Machine.run ctx before.start) :=
    GuardedMachine.run_agrees fits memory.start
  have written : (Journal.ofRun ctx before.start).mapM Checked.line =
      .ok ((Journal.ofRun ctx before.start).map Entry.line) := by
    rw [funext Checked.line_eq]
    exact List.mapM_pure (m := Checked)
  unfold Agrees evaluate Session.evaluate
  dsimp only
  rw [written,ran,Checked.ok_bind,Checked.ok_bind]
  cases Machine.run ctx before.start <;> rfl

private theorem isTopTrue_eq (stack : Stack) : isTopTrue stack = .ok ((stack.peek? 0).any Number.isTrue) := by
  rw [isTopTrue,Checked.peek?_eq (by decide),Checked.ok_bind]
  cases stack.peek? 0 with
  | none => rfl
  | some top => exact Checked.isTrue_eq top

private theorem requireTrueTop_agrees : Agrees requireTrueTop Session.requireTrueTop before :=
  (Agrees.get before).bind fun _ _ _ => Agrees.computed (isTopTrue_eq _) (Agrees.lift _ _)

private theorem evaluateRedeem_agrees {stack : Stack} (memory : Session.Addressable { before with stack }) :
    Agrees (evaluateRedeem rules stack) (Session.evaluateRedeem rules stack) before := by
  refine (Agrees.modify _ before).bind fun _ middle changed => ?_
  cases changed
  cases stack with
  | nil => exact Agrees.lift _ _
  | cons bytes rest =>
    have redeemable : bytes.Addressable := memory.items bytes List.mem_cons_self
    refine Agrees.computed (Checked.parse_eq redeemable) (Agrees.computed (Checked.line_eq _) ?_)
    refine (Agrees.modify _ _).bind fun _ last changed => ?_
    cases changed
    refine (evaluate_agrees (.ofBytes redeemable) ⟨?_,?_⟩ true).bind fun _ _ _ => requireTrueTop_agrees
    · exact Nat.lt_of_succ_lt memory.stack
    · exact fun item member => memory.items item (List.mem_cons_of_mem _ member)

end GuardedSession

namespace Session

/-- A step that never ends in the refusal that is an assertion. -/
abbrev Fails {α : Type} (step : Action α) : Prop :=
  Keeps (fun _ => True) (fun _ => True) (· ≠ .cleanStackWithoutP2SH) step

theorem Fails.passes {α : Type} {step : Action α} (fails : Fails step) (before : Session) :
    ¬ ∃ after, step before = .error .cleanStackWithoutP2SH after := by
  intro refused
  obtain ⟨_,refused⟩ := refused
  exact absurd rfl (fails.failure trivial refused).2

theorem ensure_fails (condition : Bool) (error : ScriptError) : Fails (ensure condition error) :=
  (Keeps.check fun _ => nofun).weaken fun _ _ => trivial

theorem evaluate_fails (rules : Rules) (script : Script) (redeem : Bool) :
    Fails (evaluate rules script redeem) := by
  intro before _
  unfold evaluate
  dsimp only
  cases Machine.run { rules with script, redeem } before.start with
  | ok done state => exact ⟨trivial,trivial⟩
  | error error state => exact ⟨trivial,nofun⟩

theorem requireTrueTop_fails : Fails requireTrueTop := Keeps.get.bind fun _ _ => ensure_fails _ _

theorem evaluateRedeem_fails (rules : Rules) (stack : Stack) : Fails (evaluateRedeem rules stack) := by
  refine (Keeps.modify fun _ _ => trivial).bind fun _ _ => ?_
  cases stack with
  | nil => exact Keeps.throw nofun
  | cons bytes rest =>
    exact (Keeps.modify fun _ _ => trivial).bind fun _ _ => (evaluate_fails _ _ _).bind fun _ _ =>
      requireTrueTop_fails

/-- What a step ends in if the refusal that is an assertion is a fault. -/
def settle {α : Type} : EStateM.Result Refusal Session α → Checked (EStateM.Result Refusal Session α)
  | .error .cleanStackWithoutP2SH _ => throw .assertion
  | ended => pure ended

theorem settle_eq_ok {α : Type} {ended : EStateM.Result Refusal Session α}
    (fine : ¬ ∃ after, ended = .error .cleanStackWithoutP2SH after) : settle ended = .ok ended := by
  unfold settle
  split
  next after => exact absurd ⟨after,rfl⟩ fine
  next => rfl

theorem settle_eq_error {α : Type} {ended : EStateM.Result Refusal Session α}
    (refused : ∃ after, ended = .error .cleanStackWithoutP2SH after) : settle ended = .error .assertion := by
  obtain ⟨after,rfl⟩ := refused
  rfl

end Session

namespace GuardedSession

open Guarded

variable {rules : Rules} {unlocking locking script : Script} {before : Session}

/-- A guarded step ends as a plain one does, but for the assertion. -/
def Settles {α : Type} (guarded : GuardedSession α) (plain : Session.Action α) (before : Session) : Prop :=
  guarded before = Session.settle (plain before)

namespace Settles

variable {α β : Type} {guarded : GuardedSession α} {plain : Session.Action α}

theorem of_agrees (agrees : Agrees guarded plain before) (fails : Session.Fails plain) :
    Settles guarded plain before :=
  agrees.trans (Session.settle_eq_ok (fails.passes before)).symm

theorem bind {next : α → GuardedSession β} {next' : α → Session.Action β}
    (head : Agrees guarded plain before) (fails : Session.Fails plain)
    (tail : ∀ value middle, plain before = .ok value middle → Settles (next value) (next' value) middle) :
    Settles (guarded >>= next) (plain >>= next') before := by
  have passes := fails.passes before
  change ((guarded before).bind fun ran => _) = Session.settle (EStateM.bind plain next' before)
  rw [show guarded before = .ok (plain before) from head]
  unfold EStateM.bind
  cases ran : plain before with
  | ok value middle => exact tail value middle ran
  | error refusal after =>
    rw [ran] at passes
    cases refusal with
    | failed error => rfl
    | cleanStackWithoutP2SH => exact absurd ⟨after,rfl⟩ passes

theorem computed {value : Checked α} {result : α} {next : α → GuardedSession β} {plain : Session.Action β}
    (computes : value = .ok result) (tail : Settles (next result) plain before) :
    Settles ((liftM value : GuardedSession α) >>= next) plain before := by
  subst computes
  exact tail

end Settles

private theorem requireCleanStack_settles (rules : Rules) (before : Session) :
    Settles (requireCleanStack rules) (Session.requireCleanStack rules) before := by
  unfold requireCleanStack Session.requireCleanStack
  cases rules.flags.has .p2sh with
  | true => exact .of_agrees (Agrees.lift _ _) (Keeps.get.bind fun _ _ => Session.ensure_fails _ _)
  | false => rfl

private theorem tidy_settles (rules : Rules) (before : Session) :
    Settles (do if rules.flags.has .cleanStack then requireCleanStack rules) (Session.tidy rules) before := by
  unfold Session.tidy
  cases rules.flags.has .cleanStack with
  | true => exact requireCleanStack_settles rules before
  | false => rfl

theorem satisfy_settles (fits : unlocking.Addressable) (fits' : locking.Addressable)
    (memory : before.Addressable) :
    Settles (satisfy rules unlocking locking) (Session.satisfy rules unlocking locking) before := by
  refine Settles.bind (Agrees.lift _ _) (Session.ensure_fails _ _) fun _ middle ran => ?_
  obtain ⟨_,rfl⟩ := Session.ensure_success_iff.mp ran
  refine Settles.bind (evaluate_agrees fits memory _) (Session.evaluate_fails _ _ _) fun _ opened ran => ?_
  have memory' := Session.evaluate_addressable memory ran
  refine Settles.bind (Agrees.get opened) Keeps.get fun _ _ looked => ?_
  cases looked
  refine Settles.bind (evaluate_agrees fits' memory' _) (Session.evaluate_fails _ _ _) fun _ _ _ => ?_
  refine Settles.bind requireTrueTop_agrees Session.requireTrueTop_fails fun _ _ _ => ?_
  have pays : (if rules.flags.has .p2sh then Checked.paysToScript locking else pure false : Checked Bool) =
      .ok (rules.flags.has .p2sh && Session.paysToScript locking) := by
    rw [Checked.paysToScript_eq]
    cases rules.flags.has .p2sh <;> rfl
  refine Settles.computed pays ?_
  dsimp only
  split
  next =>
    refine Settles.bind (Agrees.lift _ _) (Session.ensure_fails _ _) fun _ _ _ => ?_
    refine Settles.bind (evaluateRedeem_agrees ⟨memory'.stack,memory'.items⟩)
      (Session.evaluateRedeem_fails _ _) fun _ last _ => ?_
    exact tidy_settles rules last
  next => exact tidy_settles rules _

end GuardedSession

end ColorScript
