import ColorScript.Proofs.VerificationLockstep

/-! Dropping flags never makes a verification fail. -/
namespace ColorScript.Session

/-- A verification that succeeds still does when flags are dropped. A clean stack may only be
asked for along with the rule for script digests, and the two operations that do nothing
without their flags keep these flags where such operations are discouraged. The stack and
the colour stay the same if the rule for script digests is kept or was not set. -/
theorem verify_of_subset (oracle : Oracle) (strict lax : Flags) (subset : lax ⊆ strict)
    (clean : lax.has .cleanStack = true → lax.has .p2sh = true)
    (nops : lax.has .discourageUpgradableNops = true →
      strict.has .checkLockTimeVerify = lax.has .checkLockTimeVerify ∧
        strict.has .checkSequenceVerify = lax.has .checkSequenceVerify)
    (unlocking locking : Script) (before before' after : Session)
    (ok : verify ⟨strict,oracle⟩ unlocking locking before = .ok () after) :
    ∃ after', verify ⟨lax,oracle⟩ unlocking locking before' = .ok () after' ∧
      (strict.has .p2sh = lax.has .p2sh →
        after'.stack = after.stack ∧ after'.color = after.color) := by
  have relaxed : Rules.Relaxed ⟨strict,oracle⟩ ⟨lax,oracle⟩ :=
    ⟨subset,nops,fun _ granted => granted,.inl fun _ _ => rfl⟩
  exact verify_lax relaxed (fun set _ => clean set) ok before'

/-- The lock time operation is checked under the standard flags and does nothing under the
mandatory ones. -/
theorem verify_of_subset_lockTime :
    ∃ after', verify ⟨Flags.mandatory,fun _ => true⟩ [.push [1] [17]] [.op 0xb1] {} = .ok () after' ∧
      after'.stack = [[17]] ∧ after'.color = none := by
  have subset : Flags.mandatory ⊆ Flags.standard := by
    intro flag
    cases flag <;> decide
  have ok : ∃ after, verify ⟨Flags.standard,fun _ => true⟩ [.push [1] [17]] [.op 0xb1] {} = .ok () after ∧
      after.stack = [[17]] ∧ after.color = none := ⟨_,rfl,rfl,rfl⟩
  obtain ⟨after,ok,stack,color⟩ := ok
  obtain ⟨after',ok',same⟩ := verify_of_subset (fun _ => true) Flags.standard Flags.mandatory subset
    (by decide) (by decide) [.push [1] [17]] [.op 0xb1] {} {} after ok
  obtain ⟨stack',color'⟩ := same rfl
  exact ⟨after',ok',stack'.trans stack,color'.trans color⟩

end ColorScript.Session
