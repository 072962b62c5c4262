import ColorScript.Session

/-! Rules that ask for less: fewer flags are set and the oracle says yes more often. What a
check of an encoding, of a number or of the code of a signature accepts under some rules, it
accepts with the same result under rules that ask for less. -/
namespace ColorScript

/-- A set of flags is part of another one if all its flags are set there. -/
instance : HasSubset Flags := ⟨fun part whole => ∀ flag, part.has flag = true → whole.has flag = true⟩

namespace Flags

variable {strict lax : Flags}

theorem has_of_unset (subset : lax ⊆ strict) (flag : Flag) (unset : strict.has flag = false) :
    lax.has flag = false := by
  cases set : lax.has flag with
  | false => rfl
  | true => rw [subset flag set] at unset; cases unset

theorem unless_has (subset : lax ⊆ strict) (flag : Flag) (condition : Bool)
    (held : (!strict.has flag || condition) = true) : (!lax.has flag || condition) = true := by
  cases set : strict.has flag with
  | false => simp [has_of_unset subset flag set]
  | true =>
    rw [set] at held
    simp only [Bool.not_true,Bool.false_or] at held
    simp [held]

private theorem not_has_and (subset : lax ⊆ strict) (flag : Flag) (refused : Bool)
    (passed : ¬ (strict.has flag && refused) = true) : ¬ (lax.has flag && refused) = true := by
  intro refuses
  simp only [Bool.and_eq_true] at passed refuses
  exact passed ⟨subset flag refuses.1,refuses.2⟩

end Flags

theorem Number.operand_lax (size : Nat) (strict lax : Bool) (bytes : Bytes) (n : Int)
    (weaker : lax = true → strict = true) (ok : operand size strict bytes = .ok n) :
    operand size lax bytes = .ok n := by
  unfold operand at ok ⊢
  split at ok
  next => cases ok
  next short =>
    rw [if_neg short]
    split at ok
    next => cases ok
    next minimal =>
      have passed : ¬ (lax && !isMinimal bytes) = true := by
        intro refused
        simp only [Bool.and_eq_true] at minimal refused
        exact minimal ⟨weaker refused.1,refused.2⟩
      rw [if_neg passed]
      exact ok

namespace Signature

variable {isLow : Bytes → Bool} {strict lax : Flags}

private theorem checkHashType_lax (subset : lax ⊆ strict) (sig : Bytes)
    (ok : checkHashType strict sig = .ok ()) : checkHashType lax sig = .ok () := by
  unfold checkHashType at ok ⊢
  split at ok
  next => cases ok
  next passed => rw [if_neg (Flags.not_has_and subset _ _ passed)]

private theorem checkEcdsaBy_lax (subset : lax ⊆ strict) (sig : Bytes)
    (ok : checkEcdsaBy isLow strict sig = .ok ()) : checkEcdsaBy isLow lax sig = .ok () := by
  unfold checkEcdsaBy at ok ⊢
  split at ok
  next => cases ok
  next der =>
    have passed : ¬ ((lax.has .derSig || lax.has .lowS || lax.has .strictEnc) &&
        !isStrictDER sig) = true := by
      intro refused
      simp only [Bool.and_eq_true,Bool.or_eq_true] at der refused
      exact der ⟨refused.1.imp (.imp (subset _) (subset _)) (subset _),refused.2⟩
    rw [if_neg passed]
    split at ok
    next => cases ok
    next low => rw [if_neg (Flags.not_has_and subset _ _ low)]

theorem checkTransactionBy_lax (subset : lax ⊆ strict) (sig : Bytes)
    (ok : checkTransactionBy isLow strict sig = .ok ()) : checkTransactionBy isLow lax sig = .ok () := by
  unfold checkTransactionBy at ok ⊢
  split at ok
  next empty => rw [if_pos empty]
  next nonempty =>
    rw [if_neg nonempty]
    split at ok
    next schnorr => rw [if_pos schnorr]; exact checkHashType_lax subset sig ok
    next ecdsa =>
      rw [if_neg ecdsa]
      cases der : checkEcdsaBy isLow strict sig with
      | error error => rw [der] at ok; cases ok
      | ok _ =>
        rw [der] at ok
        rw [checkEcdsaBy_lax subset sig der]
        exact checkHashType_lax subset sig ok

theorem checkDataBy_lax (subset : lax ⊆ strict) (sig : Bytes)
    (ok : checkDataBy isLow strict sig = .ok ()) : checkDataBy isLow lax sig = .ok () := by
  unfold checkDataBy at ok ⊢
  split at ok
  next free => rw [if_pos free]
  next => rw [if_neg (by assumption)]; exact checkEcdsaBy_lax subset _ ok

theorem checkKey_lax (subset : lax ⊆ strict) (key : Bytes)
    (ok : checkKey strict key = .ok ()) : checkKey lax key = .ok () := by
  unfold checkKey at ok ⊢
  split at ok
  next => cases ok
  next passed => rw [if_neg (Flags.not_has_and subset _ _ passed)]

theorem checkTransaction_nil (flags : Flags) : checkTransaction flags [] = .ok () := rfl

end Signature

namespace Machine

private theorem withoutSignature_lax {strict lax : Flags} (subset : lax ⊆ strict) (code : Script)
    (sig : Bytes) (stripped : Script) (ok : withoutSignature strict code sig = .ok stripped) :
    withoutSignature lax code sig = .ok stripped := by
  unfold withoutSignature at ok ⊢
  split at ok
  next => cases ok
  next push pushed =>
    dsimp only at ok ⊢
    split at ok
    next => cases ok
    next passed =>
      rw [if_neg fun refused => passed ⟨refused.1,subset _ refused.2⟩]
      exact ok

theorem scriptCode_lax {strict lax : Context} (script : lax.script = strict.script)
    (subset : lax.flags ⊆ strict.flags) (codeStart : Nat) (sigs : List Bytes) (code : Script)
    (ok : scriptCode strict codeStart sigs = .ok code) : scriptCode lax codeStart sigs = .ok code := by
  unfold scriptCode at ok ⊢
  rw [script]
  generalize strict.script.subscript codeStart = start at ok
  induction sigs generalizing start with
  | nil => exact ok
  | cons sig sigs ih =>
    rw [List.foldlM_cons] at ok ⊢
    cases deleted : withoutSignature strict.flags start sig with
    | error error => rw [deleted] at ok; cases ok
    | ok stripped =>
      rw [deleted] at ok
      rw [withoutSignature_lax subset start sig stripped deleted]
      exact ih stripped ok

end Machine

/-- Whether a question is about a signature, and not about a lock time. -/
def Query.isVerdict : Query → Bool
  | .signature _ _ _ | .dataSignature _ _ _ => true
  | .lockTime _ | .sequence _ => false

/-- An oracle that takes no empty signature of the transaction for a right one. -/
def Oracle.RefusesEmpty (oracle : Oracle) : Prop :=
  ∀ key code, oracle (.signature [] key code) = false

/-- The second rules ask for less than the first ones. Where a flag is missing, an operation
may fall back on one that is discouraged, so these flags must agree. The answers about
signatures must agree as well, unless a failed check may only be about an empty signature. -/
structure Rules.Relaxed (strict lax : Rules) : Prop where
  flags : lax.flags ⊆ strict.flags
  nops : lax.flags.has .discourageUpgradableNops = true →
    strict.flags.has .checkLockTimeVerify = lax.flags.has .checkLockTimeVerify ∧
      strict.flags.has .checkSequenceVerify = lax.flags.has .checkSequenceVerify
  grants : ∀ query, strict.oracle query = true → lax.oracle query = true
  verdicts : (∀ query, query.isVerdict = true → lax.oracle query = strict.oracle query) ∨
    strict.flags.has .nullFail = true ∧ lax.oracle.RefusesEmpty

namespace Rules.Relaxed

variable {strict lax : Rules}

theorem refl (rules : Rules) : Rules.Relaxed rules rules :=
  ⟨fun _ set => set,fun _ => ⟨rfl,rfl⟩,fun _ granted => granted,.inl fun _ _ => rfl⟩

/-- A check of a signature whose failure is accepted has the same answer on both sides. -/
theorem signature_eq (relaxed : Rules.Relaxed strict lax) (sig key : Bytes) (code : Script)
    (judged : (strict.oracle (.signature sig key code) || !strict.flags.has .nullFail ||
      [sig].all List.isEmpty) = true) :
    lax.oracle (.signature sig key code) = strict.oracle (.signature sig key code) := by
  rcases relaxed.verdicts with agree | ⟨strictly,refuses⟩
  · exact agree _ rfl
  · cases granted : strict.oracle (.signature sig key code) with
    | true => exact relaxed.grants _ granted
    | false =>
      have empty : sig = [] := by simpa [granted,strictly] using judged
      subst empty
      exact refuses key code

theorem dataSignature_eq (relaxed : Rules.Relaxed strict lax) (sig key digest : Bytes)
    (nonempty : sig.isEmpty = false)
    (judged : (strict.oracle (.dataSignature sig key digest) || !strict.flags.has .nullFail ||
      [sig].all List.isEmpty) = true) :
    lax.oracle (.dataSignature sig key digest) = strict.oracle (.dataSignature sig key digest) := by
  rcases relaxed.verdicts with agree | ⟨strictly,_⟩
  · exact agree _ rfl
  · have granted : strict.oracle (.dataSignature sig key digest) = true := by
      simpa [strictly,nonempty] using judged
    rw [granted]
    exact relaxed.grants _ granted

end Rules.Relaxed

end ColorScript
