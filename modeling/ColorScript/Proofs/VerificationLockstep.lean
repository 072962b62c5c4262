import ColorScript.Proofs.RunLockstep

/-! Verifications in lock step: the parts one by one, and then two verifications of which only
the first may look at script digests. -/
namespace ColorScript.Session

variable {strict lax : Rules} {colors : Bool}

theorem ensure_lockstep {states : Session → Session → Prop} (condition condition' : Bool)
    (error error' : ScriptError) (implied : condition = true → condition' = true) :
    Lockstep states Eq (ensure condition error) (ensure condition' error') :=
  Lockstep.check _ _ implied

private theorem requireTrueTop_lockstep : Lockstep (Agree colors) Eq requireTrueTop requireTrueTop := by
  refine Lockstep.get.bind fun before before' agree => ensure_lockstep _ _ _ _ fun truthy => ?_
  rwa [agree.stack]

private theorem evaluateRedeem_lockstep (relaxed : Rules.Relaxed strict lax) (stack : Stack) :
    Lockstep (Agree colors) Eq (evaluateRedeem strict stack) (evaluateRedeem lax stack) := by
  refine Lockstep.seq (Lockstep.modify _ _ ?_) fun _ => ?_
  · intro before before' agree
    exact { agree with stack := rfl }
  · cases stack with
    | nil => exact Lockstep.throw _ _
    | cons bytes rest =>
      refine Lockstep.seq (Lockstep.modify _ _ ?_) fun _ => ?_
      · intro before before' agree
        exact { agree with stack := rfl }
      · exact (evaluate_lockstep relaxed _ true fun plain => nomatch plain).seq fun _ =>
          requireTrueTop_lockstep

private theorem unlock_lockstep (relaxed : Rules.Relaxed strict lax) (unlocking locking : Script) :
    Lockstep (Agree true) Eq (unlock strict unlocking locking) (unlock lax unlocking locking) := by
  refine (ensure_lockstep _ _ _ _ (Flags.unless_has relaxed.flags _ _)).seq fun _ => ?_
  refine (evaluate_lockstep relaxed _ _ fun _ => rfl).seq fun _ => Lockstep.get.bind ?_
  intro middle middle' agree
  rw [agree.stack]
  refine (evaluate_lockstep relaxed _ _ fun _ => rfl).seq fun _ => ?_
  exact requireTrueTop_lockstep.seq fun _ => Lockstep.pure rfl

private theorem redeem_lockstep (relaxed : Rules.Relaxed strict lax)
    (same : strict.flags.has .p2sh = lax.flags.has .p2sh) (unlocking locking : Script)
    (unlocked : Stack) :
    Lockstep (Agree true) Eq (redeem strict unlocking locking unlocked)
      (redeem lax unlocking locking unlocked) := by
  rw [redeem,redeem,same]
  refine Lockstep.ite (fun _ => ?_) fun _ => Lockstep.pure rfl
  exact (ensure_lockstep _ _ _ _ id).seq fun _ => evaluateRedeem_lockstep relaxed unlocked

/-- A verification that succeeds does so under laxer rules. The rule for script digests may be
dropped with the others, as long as the rule that builds on it is dropped too; the stack and
the colour are the same if it is kept. -/
theorem verify_lax (relaxed : Rules.Relaxed strict lax)
    (clean : lax.flags.has .cleanStack = true → strict.flags.has .p2sh = true →
      lax.flags.has .p2sh = true)
    {unlocking locking : Script} {before after : Session}
    (ok : verify strict unlocking locking before = .ok () after) (before' : Session) :
    ∃ after', verify lax unlocking locking before' = .ok () after' ∧
      (strict.flags.has .p2sh = lax.flags.has .p2sh →
        after'.stack = after.stack ∧ after'.color = after.color) := by
  obtain ⟨final,satisfied,rfl⟩ := verify_success_iff.mp ok
  rw [satisfy_eq] at satisfied
  obtain ⟨unlocked,middle,opened,satisfied⟩ := bind_success _ _ _ _ _ satisfied
  obtain ⟨_,last,redeemed,tidied⟩ := bind_success _ _ _ _ _ satisfied
  obtain ⟨rfl,single⟩ := tidy_success_iff.mp tidied
  have fresh : Agree true { calls := before.calls, journal := before.journal }
      { calls := before'.calls, journal := before'.journal } := ⟨rfl,fun _ => rfl⟩
  obtain ⟨_,middle',opened',rfl,agree⟩ :=
    unlock_lockstep relaxed unlocking locking _ _ _ _ fresh opened
  by_cases same : strict.flags.has .p2sh = lax.flags.has .p2sh
  · obtain ⟨_,last',redeemed',_,agree'⟩ := redeem_lockstep relaxed same unlocking locking unlocked
      _ _ _ _ agree redeemed
    have tidied' : tidy lax last' = .ok () last' := by
      refine tidy_success_iff.mpr ⟨rfl,fun set => ?_⟩
      have looked := single (relaxed.flags _ set)
      rw [agree'.stack]
      exact ⟨clean set looked.1,looked.2⟩
    refine ⟨_,verify_success_iff.mpr ⟨last',?_,rfl⟩,fun _ => ⟨agree'.stack,agree'.color rfl⟩⟩
    rw [satisfy_eq,bind_of_success opened',bind_of_success redeemed',tidied']
  · -- Only the first run looks at script digests, so the second one is done.
    have dropped : lax.flags.has .p2sh = false := by
      cases set : lax.flags.has .p2sh with
      | false => rfl
      | true => exact absurd (by rw [set,relaxed.flags _ set]) same
    have untidied : lax.flags.has .cleanStack = false := by
      cases set : lax.flags.has .cleanStack with
      | false => rfl
      | true =>
        rw [clean set (single (relaxed.flags _ set)).1] at dropped
        cases dropped
    refine ⟨_,verify_success_iff.mpr ⟨middle',?_,rfl⟩,fun equal => absurd equal same⟩
    rw [satisfy_eq,bind_of_success opened']
    simp only [redeem,tidy,dropped,untidied]
    rfl

end ColorScript.Session
