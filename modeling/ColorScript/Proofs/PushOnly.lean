import ColorScript.Proofs.Success

/-! Scripts of pushes only: a run of one can do nothing but put items on the stack. -/
namespace ColorScript

theorem Operation.ofOpcode_small (code : Opcode) (small : code ≤ Opcode.sixteen) :
    (∃ n, ofOpcode code = .pushInt n) ∨ ofOpcode code = .invalid := by
  have each : ∀ code, code ≤ Opcode.sixteen →
      (match ofOpcode code with
        | .pushInt _ | .invalid => true
        | _ => false) = true := forall_byte (by decide +kernel)
  have found := each code small
  split at found
  next n same => exact .inl ⟨n,same⟩
  next same => exact .inr same
  next => cases found

namespace Machine

variable {ctx : Context} {before after : State}

private theorem step_pushOnly {place : Nat} {chunk : Chunk} {done : Unit}
    (small : chunk.opcode ≤ Opcode.sixteen) (ok : step ctx place chunk before = .ok done after) :
    ∃ stack, after = { before with stack } := by
  by_cases operation : chunk.isPush = false
  · rw [step_operation ctx place operation] at ok
    -- Nothing is charged for a small opcode, so the checks leave the state as it is.
    simp only [screen,if_neg (UInt8.not_lt.mpr small),bind_success_iff,ensure_success_iff,
      get_bind_apply] at ok
    obtain ⟨_,_,⟨_,_,⟨_,rfl⟩,_,rfl⟩,ok⟩ := ok
    split at ok
    · rcases Operation.ofOpcode_small chunk.opcode small with ⟨n,same⟩ | same
      · rw [same] at ok
        cases ok
        exact ⟨_,rfl⟩
      · rw [same] at ok
        cases ok
    · cases ok
      exact ⟨_,rfl⟩
  · cases chunk with
    | push header payload =>
      simp only [step,pushPayload,bind_success_iff,ensure_success_iff,get_bind_apply] at ok
      obtain ⟨_,_,⟨_,rfl⟩,ok⟩ := ok
      split at ok
      · simp only [bind_success_iff,ensure_success_iff] at ok
        obtain ⟨_,_,⟨_,rfl⟩,_,_,⟨_,rfl⟩,ok⟩ := ok
        cases ok
        exact ⟨_,rfl⟩
      · cases ok
        exact ⟨_,rfl⟩
    | op code => exact absurd rfl operation
    | raw bytes => exact absurd rfl operation

/-- The run lemma for pushes: only the stack is not as it was. -/
theorem advanceAll_pushOnly {place : Nat} {chunks : List Chunk} {done : Unit}
    (small : Script.isPushOnly chunks = true)
    (ok : advanceAll ctx place chunks before = .ok done after) :
    ∃ stack, after = { before with stack } := by
  induction chunks generalizing place before with
  | nil =>
    cases ok
    exact ⟨_,rfl⟩
  | cons chunk rest ih =>
    simp only [Script.isPushOnly,List.all_cons,Bool.and_eq_true,decide_eq_true_eq] at small
    obtain ⟨middle,stepped,ok⟩ := advanceAll_cons_success_iff.mp ok
    obtain ⟨stack,rfl⟩ := step_pushOnly small.1 (advance_success_iff.mp stepped).1
    obtain ⟨stack',rfl⟩ := ih small.2 ok
    exact ⟨stack',rfl⟩

end Machine

end ColorScript
