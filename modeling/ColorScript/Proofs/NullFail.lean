import ColorScript.Proofs.VerificationLockstep

/-! Where only empty signatures may fail, the oracle can refuse a script but cannot steer it. -/
namespace ColorScript.Session

private theorem relaxed_of_grants {flags : Flags} (strictly : flags.has .nullFail = true)
    {first second : Oracle} (refuses : second.RefusesEmpty)
    (grants : ∀ query, first query = true → second query = true) :
    Rules.Relaxed ⟨flags,first⟩ ⟨flags,second⟩ :=
  ⟨fun _ set => set,fun _ => ⟨rfl,rfl⟩,grants,.inr ⟨strictly,refuses⟩⟩

private theorem evaluate_of_grants {flags : Flags} (strictly : flags.has .nullFail = true)
    {first second : Oracle} (refuses : second.RefusesEmpty)
    (grants : ∀ query, first query = true → second query = true) {script : Script} {redeem : Bool}
    {before after : Session} (ok : evaluate ⟨flags,first⟩ script redeem before = .ok () after) :
    ∃ after', evaluate ⟨flags,second⟩ script redeem before = .ok () after' ∧
      after'.stack = after.stack ∧ after'.color = after.color := by
  have relaxed := relaxed_of_grants strictly refuses grants
  have same : Agree true before before := ⟨rfl,fun _ => rfl⟩
  obtain ⟨_,after',ok',_,agree⟩ :=
    evaluate_lockstep relaxed script redeem (fun _ => rfl) _ _ _ _ same ok
  exact ⟨after',ok',agree.stack,agree.color rfl⟩

private theorem verify_of_grants {flags : Flags} (strictly : flags.has .nullFail = true)
    {first second : Oracle} (refuses : second.RefusesEmpty)
    (grants : ∀ query, first query = true → second query = true) {unlocking locking : Script}
    {before after : Session} (ok : verify ⟨flags,first⟩ unlocking locking before = .ok () after) :
    ∃ after', verify ⟨flags,second⟩ unlocking locking before = .ok () after' ∧
      after'.stack = after.stack ∧ after'.color = after.color := by
  have relaxed := relaxed_of_grants strictly refuses grants
  obtain ⟨after',ok',same⟩ := verify_lax relaxed (fun _ set => set) ok before
  exact ⟨after',ok',same rfl⟩

/-- The oracle that says yes wherever one of two does. -/
def either (first second : Oracle) : Oracle := fun query => first query || second query

-- If an action only gets further with an oracle that says yes more often, two oracles that both
-- let it succeed lead to one stack and one colour: those of either of them together.
private theorem same_outcome (run : Oracle → Action Unit) {first second : Oracle}
    (firstRefuses : first.RefusesEmpty) (secondRefuses : second.RefusesEmpty)
    (grows : ∀ oracle, (either first second).RefusesEmpty →
      (∀ query, oracle query = true → either first second query = true) →
      ∀ before after, run oracle before = .ok () after →
        ∃ after', run (either first second) before = .ok () after' ∧
          after'.stack = after.stack ∧ after'.color = after.color)
    {before after₁ after₂ : Session} (ok₁ : run first before = .ok () after₁)
    (ok₂ : run second before = .ok () after₂) :
    after₁.stack = after₂.stack ∧ after₁.color = after₂.color := by
  have refuses : (either first second).RefusesEmpty := by
    intro key code
    rw [either,firstRefuses,secondRefuses]
    rfl
  obtain ⟨after,ok,stack₁,color₁⟩ := grows first refuses
    (fun query granted => by rw [either,granted]; rfl) before after₁ ok₁
  obtain ⟨_,again,stack₂,color₂⟩ := grows second refuses
    (fun query granted => by rw [either,granted,Bool.or_true]) before after₂ ok₂
  rw [ok] at again
  cases again
  exact ⟨stack₁.symm.trans stack₂,color₁.symm.trans color₂⟩

/-- Under the flag, two oracles that refuse empty signatures lead every script, and every
verification, to the same stack and colour if both let it succeed. An oracle that says yes
more often lets more succeed. -/
theorem oracle_decides_acceptance_only (flags : Flags) (first second : Oracle)
    (strictly : flags.has .nullFail = true) (firstRefuses : first.RefusesEmpty)
    (secondRefuses : second.RefusesEmpty) :
    (∀ (script : Script) (redeem : Bool) (before after₁ after₂ : Session),
      evaluate ⟨flags,first⟩ script redeem before = .ok () after₁ →
      evaluate ⟨flags,second⟩ script redeem before = .ok () after₂ →
      after₁.stack = after₂.stack ∧ after₁.color = after₂.color) ∧
    (∀ (unlocking locking : Script) (before after₁ after₂ : Session),
      verify ⟨flags,first⟩ unlocking locking before = .ok () after₁ →
      verify ⟨flags,second⟩ unlocking locking before = .ok () after₂ →
      after₁.stack = after₂.stack ∧ after₁.color = after₂.color) ∧
    ((∀ query, first query = true → second query = true) →
      (∀ (script : Script) (redeem : Bool) (before after : Session),
        evaluate ⟨flags,first⟩ script redeem before = .ok () after →
        ∃ after', evaluate ⟨flags,second⟩ script redeem before = .ok () after') ∧
      ∀ (unlocking locking : Script) (before after : Session),
        verify ⟨flags,first⟩ unlocking locking before = .ok () after →
        ∃ after', verify ⟨flags,second⟩ unlocking locking before = .ok () after') := by
  refine ⟨?_,?_,fun grants => ⟨?_,?_⟩⟩
  · intro script redeem before after₁ after₂ ok₁ ok₂
    exact same_outcome (fun oracle => evaluate ⟨flags,oracle⟩ script redeem) firstRefuses
      secondRefuses (fun _ refuses grants _ _ => evaluate_of_grants strictly refuses grants) ok₁ ok₂
  · intro unlocking locking before after₁ after₂ ok₁ ok₂
    exact same_outcome (fun oracle => verify ⟨flags,oracle⟩ unlocking locking) firstRefuses
      secondRefuses (fun _ refuses grants _ _ => verify_of_grants strictly refuses grants) ok₁ ok₂
  · intro script redeem before after ok
    obtain ⟨after',ok',_⟩ := evaluate_of_grants strictly secondRefuses grants ok
    exact ⟨after',ok'⟩
  · intro unlocking locking before after ok
    obtain ⟨after',ok',_⟩ := verify_of_grants strictly secondRefuses grants ok
    exact ⟨after',ok'⟩

private def signedBy (keys : List Bytes) : Oracle
  | .signature sig key _ => !sig.isEmpty && keys.contains key
  | _ => false

/-- One of two keys has signed. The oracle that knows only the first key is asked about both,
the other one only about the last key, and the stack is the same. -/
theorem oracle_decides_acceptance_only_oneOfTwo :
    ∃ after₁ after₂,
      evaluate ⟨Flags.single .nullFail,signedBy [[2]]⟩ [.op 0xae] false
        { stack := [[2],[3],[2],[1],[9],[]] } = .ok () after₁ ∧
      evaluate ⟨Flags.single .nullFail,signedBy [[2],[3]]⟩ [.op 0xae] false
        { stack := [[2],[3],[2],[1],[9],[]] } = .ok () after₂ ∧
      after₁.calls.length = 2 ∧ after₁.stack = after₂.stack := by
  have refuses (keys : List Bytes) : (signedBy keys).RefusesEmpty := fun _ _ => rfl
  have grants : ∀ query, signedBy [[2]] query = true → signedBy [[2],[3]] query = true := by
    intro query
    cases query <;> simp +contextual [signedBy]
  obtain ⟨same,_,more⟩ := oracle_decides_acceptance_only (Flags.single .nullFail) (signedBy [[2]])
    (signedBy [[2],[3]]) (by decide) (refuses _) (refuses _)
  have asked : succeeds (fun after => after.calls.length = 2) (evaluate
      ⟨Flags.single .nullFail,signedBy [[2]]⟩ [.op 0xae] false { stack := [[2],[3],[2],[1],[9],[]] }) =
      true := by decide +kernel
  obtain ⟨_,after₁,ok₁,twice⟩ := exists_of_succeeds asked
  obtain ⟨after₂,ok₂⟩ := (more grants).1 _ _ _ _ ok₁
  exact ⟨after₁,after₂,ok₁,ok₂,of_decide_eq_true twice,(same _ _ _ _ _ ok₁ ok₂).1⟩

end ColorScript.Session
