import ColorScript.Proofs.Faultless.Demands

/-! What a verification fails with. An error that a flag asks for arises only where that flag is set,
and the outcome that the session keeps is that of acceptance only after acceptance. -/
namespace ColorScript

/-- Whether a verification under some flags has a reason to fail with an error. The locking script
matters for one of them: where it pays to a script digest, the unlocking script must only push. -/
def ScriptError.isWarranted (flags : Flags) (locking : Script) : ScriptError → Bool
  | .ok | .sigBadLength | .opColorUnexpected => false
  | .minimalData => flags.has .minimalData
  | .minimalIf => flags.has .minimalIf
  | .sigNullFail => flags.has .nullFail
  | .sigNullDummy => flags.has .nullDummy
  | .sigHighS => flags.has .lowS
  | .sigDer => flags.has .derSig || flags.has .lowS || flags.has .strictEnc
  | .sigHashType | .pubkeyType => flags.has .strictEnc
  | .discourageUpgradableNops => flags.has .discourageUpgradableNops
  | .cleanStack => flags.has .cleanStack
  | .negativeLocktime | .unsatisfiedLocktime =>
    flags.has .checkLockTimeVerify || flags.has .checkSequenceVerify
  | .opCodeSeparator | .sigFindAndDelete => flags.has .constScriptCode
  | .sigPushOnly =>
    flags.has .sigPushOnly || flags.has .p2sh && (locking.isP2SH || locking.isColoredP2SH)
  | .opColorInRedeemScript => flags.has .p2sh
  | _ => true

private theorem ScriptError.isWarranted_of_arises {ctx : Context} {error : ScriptError}
    (known : ctx.redeem = true → ctx.flags.has .p2sh = true) (locking : Script)
    (arises : error.arises ctx = true) : error.isWarranted ctx.flags locking = true := by
  cases error <;> first | exact arises | exact known arises | rfl | cases arises

namespace Machine

variable {ctx : Context} {before after : State} {error : ScriptError}

-- The step lemma.
private theorem advance_warranted {place : Nat} {chunk : Chunk}
    (known : ctx.redeem = true → ctx.flags.has .p2sh = true) (locking : Script)
    (failed : advance ctx place chunk before = .error error after) :
    error.isWarranted ctx.flags locking = true := by
  rcases advance_error failed with arises | ⟨rfl,strict⟩ | ⟨rfl,_⟩
  · exact ScriptError.isWarranted_of_arises known locking arises
  · exact strict
  · rfl

-- The run lemma.
private theorem advanceAll_warranted {place : Nat} {chunks : List Chunk}
    (known : ctx.redeem = true → ctx.flags.has .p2sh = true) (locking : Script)
    (failed : advanceAll ctx place chunks before = .error error after) :
    error.isWarranted ctx.flags locking = true := by
  induction chunks generalizing place before with
  | nil => cases failed
  | cons chunk rest ih =>
    rcases bind_failure failed with first | ⟨_,middle,_,later⟩
    · exact advance_warranted known locking first
    · exact ih later

theorem run_warranted (known : ctx.redeem = true → ctx.flags.has .p2sh = true) (locking : Script)
    (failed : run ctx before = .error error after) : error.isWarranted ctx.flags locking = true := by
  rcases bind_failure failed with large | ⟨_,_,_,failed⟩
  · obtain ⟨_,rfl,_⟩ := ensure_failure large
    rfl
  rcases bind_failure failed with ran | ⟨_,last,_,opened⟩
  · exact advanceAll_warranted known locking ran
  · obtain ⟨_,rfl,_⟩ := ensure_failure opened
    rfl

end Machine

namespace Session

variable {rules : Rules} {unlocking locking : Script} {before after : Session}

/-- A step that fails only with errors that a verification has a reason for. -/
abbrev Warrants (rules : Rules) (locking : Script) {α : Type} (step : Action α) : Prop :=
  Keeps (fun _ => True) (fun _ => True)
    (fun refusal => ∀ error, refusal = .failed error → error.isWarranted rules.flags locking = true) step

private theorem ensure_warrants {condition : Bool} {error : ScriptError}
    (fails : condition = false → error.isWarranted rules.flags locking = true) :
    Warrants rules locking (ensure condition error) := by
  refine (Keeps.check fun refused cause same => ?_).weaken fun _ _ => trivial
  cases same
  exact fails refused

private theorem requireTrueTop_warrants : Warrants rules locking requireTrueTop :=
  Keeps.get.bind fun _ _ => ensure_warrants fun _ => rfl

private theorem evaluate_warrants (script : Script) {redeem : Bool}
    (known : redeem = true → rules.flags.has .p2sh = true) :
    Warrants rules locking (evaluate rules script redeem) := by
  intro before _
  cases ran : Machine.run { rules with script, redeem } before.start with
  | ok done state =>
    obtain ⟨after,accepted,_⟩ := evaluate_of_success before ran
    rw [accepted]
    exact ⟨trivial,trivial⟩
  | error error state =>
    rw [evaluate_of_failure before ran]
    refine ⟨trivial,fun cause same => ?_⟩
    cases same
    exact Machine.run_warranted known locking ran

private theorem evaluateRedeem_warrants (known : rules.flags.has .p2sh = true) (stack : Stack) :
    Warrants rules locking (evaluateRedeem rules stack) := by
  refine (Keeps.modify fun _ _ => trivial).bind fun _ _ => ?_
  cases stack with
  | nil =>
    refine Keeps.throw fun cause same => ?_
    cases same
    rfl
  | cons bytes rest =>
    exact (Keeps.modify fun _ _ => trivial).bind fun _ _ =>
      (evaluate_warrants _ fun _ => known).bind fun _ _ => requireTrueTop_warrants

private theorem unlock_warrants : Warrants rules locking (unlock rules unlocking locking) := by
  have ran (script : Script) : Warrants rules locking (evaluate rules script false) :=
    evaluate_warrants script nofun
  refine (ensure_warrants fun refused => ?_).bind fun _ _ => (ran unlocking).bind fun _ _ =>
    Keeps.get.bind fun _ _ => (ran locking).bind fun _ _ => requireTrueTop_warrants.bind fun _ _ =>
      Keeps.pure trivial
  have strict : rules.flags.has .sigPushOnly = true := by
    simpa using (Bool.or_eq_false_iff.mp refused).1
  exact Bool.or_eq_true_iff.mpr (.inl strict)

private theorem redeem_warrants (unlocked : Stack) :
    Warrants rules locking (redeem rules unlocking locking unlocked) := by
  refine Keeps.ite (fun chosen => ?_) fun _ => Keeps.pure trivial
  have pushes : ScriptError.sigPushOnly.isWarranted rules.flags locking = true :=
    Bool.or_eq_true_iff.mpr (.inr chosen)
  exact (ensure_warrants fun _ => pushes).bind fun _ _ =>
    evaluateRedeem_warrants (Bool.and_eq_true_iff.mp chosen).1 unlocked

private theorem tidy_warrants : Warrants rules locking (tidy rules) := by
  refine Keeps.ite (fun clean => Keeps.ite (fun _ => ?_) fun _ => Keeps.throw nofun) fun _ =>
    Keeps.pure trivial
  exact Keeps.get.bind fun _ _ => ensure_warrants fun _ => clean

private theorem satisfy_warrants : Warrants rules locking (satisfy rules unlocking locking) := by
  rw [satisfy_eq]
  exact unlock_warrants.bind fun unlocked _ => (redeem_warrants unlocked).bind fun _ _ => tidy_warrants

/-- How a verification ends: it accepts, it fails with an error, or it comes to its assertion. The
session keeps the outcome. -/
theorem verify_cases (rules : Rules) (unlocking locking : Script) (before : Session) :
    (∃ after, verify rules unlocking locking before = .ok () after ∧ after.outcome = .ok) ∨
    (∃ error after, verify rules unlocking locking before = .error (.failed error) after ∧
      after.outcome = error ∧ error.isWarranted rules.flags locking = true) ∨
    ∃ after, verify rules unlocking locking before = .error .cleanStackWithoutP2SH after := by
  let fresh : Session := { calls := before.calls, journal := before.journal }
  have warrants : Warrants rules locking (satisfy rules unlocking locking) := satisfy_warrants
  unfold verify
  cases ended : satisfy rules unlocking locking fresh with
  | ok done last => exact .inl ⟨_,rfl,rfl⟩
  | error refusal last =>
    have warranted := (warrants.failure trivial ended).2
    cases refusal with
    | failed error => exact .inr (.inl ⟨error,_,rfl,rfl,warranted error rfl⟩)
    | cleanStackWithoutP2SH => exact .inr (.inr ⟨_,rfl⟩)

/-- A verification fails only with errors that its flags warrant. Unless it comes to its assertion, it
has succeeded exactly if the outcome that the session keeps is `ok`. -/
theorem verify_error_warranted (rules : Rules) (unlocking locking : Script) (before : Session) :
    (∀ error after, verify rules unlocking locking before = .error (.failed error) after →
      error.isWarranted rules.flags locking = true) ∧
    (∀ after, verify rules unlocking locking before = .error .cleanStackWithoutP2SH after →
      rules.flags.has .cleanStack = true ∧ rules.flags.has .p2sh = false) ∧
    ((∀ after, verify rules unlocking locking before ≠ .error .cleanStackWithoutP2SH after) →
      ((final (verify rules unlocking locking before)).outcome = .ok ↔
        ∃ after, verify rules unlocking locking before = .ok () after)) := by
  have flagged : ∀ after, verify rules unlocking locking before = .error .cleanStackWithoutP2SH after →
      rules.flags.has .cleanStack = true ∧ rules.flags.has .p2sh = false := by
    intro after refused
    have asserts := verify_refused_iff.mp ⟨after,refused⟩
    exact ⟨asserts.clean,asserts.unknown⟩
  rcases verify_cases rules unlocking locking before with
    ⟨last,ended,kept⟩ | ⟨error,last,ended,kept,warranted⟩ | ⟨last,ended⟩
  · rw [ended] at flagged ⊢
    refine ⟨fun error after failed => ?_,flagged,fun _ => iff_of_true kept ⟨last,rfl⟩⟩
    cases failed
  · rw [ended] at flagged ⊢
    refine ⟨fun cause after same => ?_,flagged,fun _ => iff_of_false (fun accepted => ?_) nofun⟩
    · cases same
      exact warranted
    · -- Nothing warrants `ok` as an error.
      rw [← kept,show last.outcome = .ok from accepted] at warranted
      cases warranted
  · rw [ended] at flagged ⊢
    refine ⟨fun error after failed => ?_,flagged,fun returns => absurd rfl (returns last)⟩
    cases failed

/-- Under the rule for the unused item of several signatures, that rule is what fails. -/
theorem verify_error_warranted_nullDummy :
    ∃ after, verify ⟨Flags.single .nullDummy,Oracle.never⟩ []
        [.op 0x51,.push [0] [],.push [0] [],.op 0xae] {} = .error (.failed .sigNullDummy) after ∧
      ScriptError.sigNullDummy.isWarranted (Flags.single .nullDummy)
        [.op 0x51,.push [0] [],.push [0] [],.op 0xae] = true ∧ after.outcome ≠ .ok := by
  have fails : failsWith (.failed .sigNullDummy) (verify ⟨Flags.single .nullDummy,Oracle.never⟩ []
      [.op 0x51,.push [0] [],.push [0] [],.op 0xae] {}) = true := by decide +kernel
  obtain ⟨after,failed⟩ := exists_of_failsWith fails
  obtain ⟨warranted,_,kept⟩ := verify_error_warranted ⟨Flags.single .nullDummy,Oracle.never⟩ []
    [.op 0x51,.push [0] [],.push [0] [],.op 0xae] {}
  rw [failed] at kept
  refine ⟨after,failed,warranted _ after failed,fun same => ?_⟩
  obtain ⟨_,impossible⟩ := (kept nofun).mp same
  cases impossible

end Session

end ColorScript
