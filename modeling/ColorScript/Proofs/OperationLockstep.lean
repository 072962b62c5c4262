import ColorScript.Proofs.MachineLockstep

/-! The operations that check no signature, in lock step. -/
namespace ColorScript.Machine

variable {view : View} {strict lax : Context}

theorem reservedNothing_lockstep (relaxes : view.Relaxes strict lax) :
    Lockstep view.Alike Eq (reservedNothing strict) (reservedNothing lax) := by
  apply ensure_lockstep
  intro passed
  simp only [Bool.not_eq_eq_eq_not,Bool.not_true] at passed ⊢
  exact Flags.has_of_unset relaxes.rules.flags _ passed

private theorem flagged_lockstep (relaxes : view.Relaxes strict lax) (flag : Flag)
    (agree : lax.flags.has .discourageUpgradableNops = true →
      strict.flags.has flag = lax.flags.has flag)
    {first second : Machine Unit} (both : Lockstep view.Alike Eq first second)
    (alone : view.calls = false → Lockstep view.Alike Eq first (pure ())) :
    Lockstep view.Alike Eq
      (if strict.flags.has flag = true then first else reservedNothing strict)
      (if lax.flags.has flag = true then second else reservedNothing lax) := by
  cases set : lax.flags.has flag with
  | true =>
    rw [relaxes.rules.flags flag set]
    exact both
  | false =>
    cases strictly : strict.flags.has flag with
    | false => exact reservedNothing_lockstep relaxes
    | true =>
      have allowed : lax.flags.has .discourageUpgradableNops = false := by
        cases discouraged : lax.flags.has .discourageUpgradableNops with
        | false => rfl
        | true => rw [agree discouraged,set] at strictly; cases strictly
      have uncompared : view.calls = false := by
        cases compared : view.calls with
        | false => rfl
        | true =>
          have same := congrArg Rules.flags (relaxes.calls compared)
          rw [same,strictly] at set
          cases set
      have nothing : reservedNothing lax = pure () := by simp [reservedNothing,ensure,allowed]
      rw [nothing,if_pos rfl,if_neg Bool.false_ne_true]
      exact alone uncompared

theorem checkLockTime_lockstep (relaxes : view.Relaxes strict lax) :
    Lockstep view.Alike Eq (checkLockTime strict) (checkLockTime lax) := by
  apply flagged_lockstep relaxes _ fun discouraged => (relaxes.rules.nops discouraged).1
  · refine (peekNumber_lockstep relaxes 0 _).seq fun n => guard_lockstep id fun _ => ?_
    refine (ask_lockstep relaxes _).bind ?_
    intro answer answer' answered
    obtain ⟨rfl,rfl⟩ := answered
    exact ensure_lockstep _ _ _ _ (relaxes.rules.grants _)
  · intro uncompared
    refine silent_lockstep (peekNumber_silent strict 0 _) fun n => ?_
    refine silent_lockstep (ensure_silent _ _) fun _ => ?_
    refine silent_lockstep (ask_silent uncompared strict _) fun answer => ?_
    exact ensure_lockstep _ true _ .ok fun _ => rfl

theorem checkSequence_lockstep (relaxes : view.Relaxes strict lax) :
    Lockstep view.Alike Eq (checkSequence strict) (checkSequence lax) := by
  apply flagged_lockstep relaxes _ fun discouraged => (relaxes.rules.nops discouraged).2
  · refine (peekNumber_lockstep relaxes 0 _).seq fun n => guard_lockstep id fun _ => ?_
    refine Lockstep.ite (fun _ => Lockstep.pure rfl) fun _ => (ask_lockstep relaxes _).bind ?_
    intro answer answer' answered
    obtain ⟨rfl,rfl⟩ := answered
    exact ensure_lockstep _ _ _ _ (relaxes.rules.grants _)
  · intro uncompared
    refine silent_lockstep (peekNumber_silent strict 0 _) fun n => ?_
    refine silent_lockstep (ensure_silent _ _) fun _ => ?_
    split
    next => exact Lockstep.pure rfl
    next =>
      refine silent_lockstep (ask_silent uncompared strict _) fun answer => ?_
      exact ensure_lockstep _ true _ .ok fun _ => rfl

private theorem setFlow_lockstep (flow : List Bool) :
    Lockstep view.Alike Eq (setFlow flow) (setFlow flow) := by
  apply Lockstep.modify
  intro before before' alike
  exact { alike with flow := rfl }

theorem executing_eq {first second : State} (alike : view.Alike first second) :
    second.executing = first.executing := by
  simp only [State.executing,alike.flow]

theorem branch_lockstep (relaxes : view.Relaxes strict lax) (negated : Bool) :
    Lockstep view.Alike Eq (branch strict negated) (branch lax negated) := by
  apply Lockstep.get.bind
  intro outer outer' around
  apply Lockstep.get.bind
  intro before before' alike
  rw [executing_eq alike,around.flow]
  refine Lockstep.ite (fun _ => pop_lockstep.seq fun item => ?_) fun _ => setFlow_lockstep _
  exact guard_lockstep (Flags.unless_has relaxes.rules.flags _ _) fun _ => setFlow_lockstep _

theorem otherwise_lockstep : Lockstep view.Alike Eq otherwise otherwise := by
  apply Lockstep.get.bind
  intro before before' alike
  rw [alike.flow]
  cases before.flow with
  | nil => exact Lockstep.throw _ _
  | cons taken outer => exact setFlow_lockstep _

theorem endBranch_lockstep : Lockstep view.Alike Eq endBranch endBranch := by
  apply Lockstep.get.bind
  intro before before' alike
  rw [alike.flow]
  cases before.flow with
  | nil => exact Lockstep.throw _ _
  | cons taken outer => exact setFlow_lockstep _

theorem verify_lockstep : Lockstep view.Alike Eq verify verify :=
  (peek_lockstep 0).seq fun _ => guard_lockstep id fun _ => pop_lockstep.seq fun _ => Lockstep.pure rfl

theorem toAlt_lockstep : Lockstep view.Alike Eq toAlt toAlt := by
  refine pop_lockstep.seq fun item => Lockstep.modify _ _ ?_
  intro before before' alike
  exact { alike with alt := congrArg (item :: ·) alike.alt }

theorem fromAlt_lockstep : Lockstep view.Alike Eq fromAlt fromAlt := by
  apply Lockstep.get.bind
  intro before before' alike
  rw [alike.alt]
  cases before.alt with
  | nil => exact Lockstep.throw _ _
  | cons item rest =>
    refine Lockstep.seq (Lockstep.modify _ _ ?_) fun _ => push_lockstep item
    intro middle middle' alike
    exact { alike with alt := rfl }

private theorem rearrange?_append (move : Shuffle) (stack moved base : Stack)
    (found : move.rearrange? stack = some moved) :
    move.rearrange? (stack ++ base) = some (moved ++ base) := by
  unfold Shuffle.rearrange? at found
  split at found
  all_goals cases found
  all_goals rfl

theorem shuffle_lockstep (move : Shuffle) :
    Lockstep view.Alike Eq (shuffle move) (shuffle move) := by
  apply Lockstep.get.bind
  intro before before' alike
  have head : Lockstep view.Alike (fun moved moved' => moved' = moved ++ view.base)
      (orShort (move.rearrange? before.stack)) (orShort (move.rearrange? before'.stack)) := by
    apply orShort_lockstep
    intro moved found
    exact ⟨_,by rw [alike.stack]; exact rearrange?_append move _ _ _ found,rfl⟩
  refine head.bind ?_
  rintro moved _ rfl
  exact setStack_lockstep _ _ rfl

theorem dupIfTrue_lockstep : Lockstep view.Alike Eq dupIfTrue dupIfTrue :=
  (peek_lockstep 0).seq fun item =>
    Lockstep.ite (fun _ => push_lockstep item) fun _ => Lockstep.pure rfl

theorem fetch_lockstep (relaxes : view.Relaxes strict lax) (removed : Bool) :
    Lockstep view.Alike Eq (fetch strict removed) (fetch lax removed) := by
  refine (require_lockstep 2).seq fun _ => (popNumber_lockstep relaxes).seq fun n => ?_
  refine guard_lockstep id fun _ => Lockstep.ite (fun _ => ?_) fun _ => ?_
  · exact remove_lockstep _ fun item rest => setStack_lockstep _ _ rfl
  · exact (peek_lockstep _).seq push_lockstep

theorem equal_lockstep (ending : Ending) :
    Lockstep view.Alike Eq (equal ending) (equal ending) :=
  (require_lockstep 2).seq fun _ => pop_lockstep.seq fun _ => pop_lockstep.seq fun _ =>
    conclude_lockstep ending _ _

theorem unary_lockstep (relaxes : view.Relaxes strict lax) (function : UnaryFunction) :
    Lockstep view.Alike Eq (unary strict function) (unary lax function) :=
  (popNumber_lockstep relaxes).seq fun _ => push_lockstep _

private theorem popTwo_lockstep (relaxes : view.Relaxes strict lax) :
    Lockstep view.Alike Eq (popTwo strict) (popTwo lax) :=
  (require_lockstep 2).seq fun _ => (popNumber_lockstep relaxes).seq fun _ =>
    (popNumber_lockstep relaxes).seq fun _ => Lockstep.pure rfl

theorem binary_lockstep (relaxes : view.Relaxes strict lax) (function : BinaryFunction) :
    Lockstep view.Alike Eq (binary strict function) (binary lax function) :=
  (popTwo_lockstep relaxes).seq fun _ => push_lockstep _

theorem numEqualVerify_lockstep (relaxes : view.Relaxes strict lax) :
    Lockstep view.Alike Eq (numEqualVerify strict) (numEqualVerify lax) :=
  (popTwo_lockstep relaxes).seq fun _ => ensure_lockstep _ _ _ _ id

theorem within_lockstep (relaxes : view.Relaxes strict lax) :
    Lockstep view.Alike Eq (within strict) (within lax) :=
  (require_lockstep 3).seq fun _ => (popNumber_lockstep relaxes).seq fun _ =>
    (popNumber_lockstep relaxes).seq fun _ => (popNumber_lockstep relaxes).seq fun _ =>
      push_lockstep _

theorem digest_lockstep (function : DigestFunction) :
    Lockstep view.Alike Eq (digest function) (digest function) :=
  pop_lockstep.seq fun _ => push_lockstep _

/-- Where colours are not compared no colour can be set. -/
theorem setColor_lockstep (relaxes : view.Relaxes strict lax) :
    Lockstep view.Alike Eq (setColor strict) (setColor lax) := by
  refine (require_lockstep 1).seq fun _ => Lockstep.get.bind fun outer outer' around => ?_
  refine guard_lockstep (fun empty => by rwa [around.flow]) fun _ => ?_
  rw [relaxes.redeem]
  refine guard_lockstep id fun plain => Lockstep.get.bind fun before before' alike => ?_
  have compared : view.colors = true := relaxes.colors (by simpa using plain)
  refine guard_lockstep (fun none => by rwa [alike.color compared]) fun _ => ?_
  refine (peek_lockstep 0).seq fun item => ?_
  cases ColorId.ofBytes item with
  | error fault => exact Lockstep.throw _ _
  | ok color =>
    refine pop_lockstep.seq fun _ => Lockstep.modify _ _ ?_
    intro middle middle' alike
    exact { alike with color := fun _ => rfl }

end ColorScript.Machine
