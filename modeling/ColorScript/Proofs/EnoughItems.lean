import ColorScript.Proofs.Branches

/-! Steps that have enough items. A step is followed by how many items it needs at most and how many it
leaves at least, so that the operations made of such steps are seen not to miss an item. -/
namespace ColorScript

theorem Shuffle.rearrange?_eq_none_iff {move : Shuffle} {stack : Stack} :
    move.rearrange? stack = none ↔ stack.length < move.arity := by
  rcases stack with _ | ⟨a,_ | ⟨b,_ | ⟨c,_ | ⟨d,_ | ⟨e,_ | ⟨f,rest⟩⟩⟩⟩⟩⟩ <;>
    cases move <;> simp [rearrange?,arity]

/-- Checks that fail, but not for want of an item. -/
def Sated {α : Type} (result : Except ScriptError α) : Prop := result ≠ .error .invalidStackOperation

/-- The errors that the checks of encodings find, and the deletion of signatures from their code. -/
def ScriptError.isFinding : ScriptError → Bool
  | .sigHashType | .sigDer | .sigHighS | .pubkeyType | .unknownError | .sigFindAndDelete => true
  | _ => false

private theorem sated_of_finding {α : Type} {result : Except ScriptError α}
    (found : ∀ error, result = .error error → error.isFinding = true) : Sated result :=
  fun missed => nomatch found _ missed

namespace Signature

variable {isLow : Bytes → Bool} {flags : Flags} {sig key : Bytes} {error : ScriptError}

private theorem checkHashType_finding (failed : checkHashType flags sig = .error error) :
    error.isFinding = true := by
  unfold checkHashType at failed
  split at failed
  all_goals cases failed
  rfl

private theorem checkEcdsaBy_finding (failed : checkEcdsaBy isLow flags sig = .error error) :
    error.isFinding = true := by
  unfold checkEcdsaBy at failed
  split at failed
  next =>
    cases failed
    rfl
  next =>
    split at failed
    all_goals cases failed
    rfl

theorem checkTransactionBy_finding (failed : checkTransactionBy isLow flags sig = .error error) :
    error.isFinding = true := by
  unfold checkTransactionBy at failed
  split at failed
  next => cases failed
  next =>
    split at failed
    next => exact checkHashType_finding failed
    next =>
      cases judged : checkEcdsaBy isLow flags sig with
      | error fault =>
        rw [judged] at failed
        cases failed
        exact checkEcdsaBy_finding judged
      | ok _ =>
        rw [judged] at failed
        exact checkHashType_finding failed

theorem checkDataBy_finding (failed : checkDataBy isLow flags sig = .error error) :
    error.isFinding = true := by
  unfold checkDataBy at failed
  split at failed
  next => cases failed
  next => exact checkEcdsaBy_finding failed

theorem checkKey_finding (failed : checkKey flags key = .error error) : error.isFinding = true := by
  unfold checkKey at failed
  split at failed
  all_goals cases failed
  rfl

end Signature

namespace Machine

private theorem withoutSignature_finding {flags : Flags} {code : Script} {sig : Bytes} {error : ScriptError}
    (failed : withoutSignature flags code sig = .error error) : error.isFinding = true := by
  unfold withoutSignature at failed
  split at failed
  next =>
    cases failed
    rfl
  next =>
    dsimp only at failed
    split at failed
    all_goals cases failed
    rfl

theorem scriptCode_finding {ctx : Context} {codeStart : Nat} {sigs : List Bytes} {error : ScriptError}
    (failed : scriptCode ctx codeStart sigs = .error error) : error.isFinding = true := by
  unfold scriptCode at failed
  generalize ctx.script.subscript codeStart = code at failed
  induction sigs generalizing code with
  | nil => cases failed
  | cons sig sigs ih =>
    rw [List.foldlM_cons] at failed
    cases deleted : withoutSignature ctx.flags code sig with
    | error fault =>
      rw [deleted] at failed
      cases failed
      exact withoutSignature_finding deleted
    | ok stripped =>
      rw [deleted] at failed
      exact ih stripped failed

/-- A step that leaves at least `left` items, or fails for another reason than a short stack. -/
def Leaves {α : Type} (left : Nat) : EStateM.Result ScriptError State α → Prop
  | .ok _ after => left ≤ after.stack.length
  | .error error _ => error ≠ .invalidStackOperation

/-- A step for which `needed` items are enough, and which leaves at least `left` of them. -/
def Serves {α : Type} (needed left : Nat) (step : Machine α) : Prop :=
  ∀ before, needed ≤ before.stack.length → Leaves left (step before)

namespace Serves

variable {α β : Type} {needed between left : Nat} {first : Machine α} {next : α → Machine β}

theorem bind (head : Serves needed between first) (tail : ∀ value, Serves between left (next value)) :
    Serves needed left (first >>= next) := by
  intro before enough
  have led := head before enough
  cases done : first before with
  | ok value middle =>
    rw [done] at led
    rw [bind_of_success done]
    exact tail value middle led
  | error error middle =>
    rw [done] at led
    rw [bind_of_failure done]
    exact led

theorem leave {left' : Nat} (serves : Serves needed left first) (fewer : left' ≤ left) :
    Serves needed left' first := by
  intro before enough
  have led := serves before enough
  cases done : first before with
  | ok value after =>
    rw [done] at led
    exact Nat.le_trans fewer led
  | error error after =>
    rw [done] at led
    exact led

theorem pure (value : α) : Serves needed needed (Pure.pure value : Machine α) := fun _ => id

theorem throw {error : ScriptError} (other : error ≠ .invalidStackOperation) :
    Serves needed left (MonadExcept.throw error : Machine α) := fun _ _ => other

theorem get : Serves needed needed (MonadState.get : Machine State) := fun _ => id

theorem modify {change : State → State} (kept : ∀ before, (change before).stack = before.stack) :
    Serves needed needed (modify change : Machine Unit) := by
  intro before enough
  change needed ≤ (change before).stack.length
  rwa [kept]

theorem ite {condition : Prop} [Decidable condition] {first second : Machine α}
    (holds : Serves needed left first) (fails : Serves needed left second) :
    Serves needed left (if condition then first else second) := by
  split
  next => exact holds
  next => exact fails

end Serves

section Steps

variable {ctx : Context} {needed left : Nat}

theorem ensure_serves {condition : Bool} {error : ScriptError} (other : error ≠ .invalidStackOperation) :
    Serves needed needed (ensure condition error) := Serves.ite (Serves.pure ()) (Serves.throw other)

private theorem ofExcept_serves {α : Type} {result : Except ScriptError α}
    (found : ∀ error, result = .error error → error.isFinding = true) :
    Serves needed needed (ofExcept result) := by
  cases result with
  | ok value => exact Serves.pure value
  | error error => exact Serves.throw fun same => sated_of_finding found (congrArg Except.error same)

private theorem number_serves (size : Nat) (item : Bytes) : Serves needed needed (number ctx size item) := by
  unfold number
  split
  next n read => exact Serves.pure n
  next => exact Serves.throw nofun

private theorem require_serves {n : Nat} (enough : n ≤ needed) : Serves needed needed (require n) := by
  intro before more
  rw [require_of_le (Nat.le_trans enough more)]
  exact more

theorem push_serves (item : Bytes) : Serves needed (needed + 1) (push item) :=
  fun _ => Nat.succ_le_succ

private theorem pop_serves : Serves (needed + 1) needed pop := by
  intro before enough
  cases top : before.stack with
  | nil =>
    rw [top] at enough
    cases enough
  | cons item rest =>
    rw [top] at enough
    rw [pop_cons top]
    exact Nat.le_of_succ_le_succ enough

private theorem popNumber_serves : Serves (needed + 1) needed (popNumber ctx) :=
  pop_serves.bind fun item => number_serves _ item

theorem peek_serves {depth : Nat} (inside : depth < needed) : Serves needed needed (peek depth) := by
  intro before enough
  have deep : depth < before.stack.length := Nat.lt_of_lt_of_le inside enough
  have found : before.stack.peek? depth = some before.stack[depth] := List.getElem?_eq_getElem deep
  rw [peek_success_iff.mpr ⟨found,rfl⟩]
  exact enough

private theorem peekNumber_serves {depth size : Nat} (inside : depth < needed) :
    Serves needed needed (peekNumber ctx depth size) :=
  (peek_serves inside).bind fun item => number_serves size item

private theorem ask_serves (query : Query) : Serves needed needed (ask ctx query) :=
  fun _ => id

private theorem conclude_serves (ending : Ending) {error : ScriptError} (other : error ≠ .invalidStackOperation)
    (truth : Bool) : Serves needed needed (conclude ending error truth) := by
  cases ending with
  | yield => exact (push_serves _).leave (Nat.le_succ needed)
  | demand => exact ensure_serves other

end Steps

section Operations

variable {ctx : Context} {before : State}

theorem checkLockTime_serves : Serves (if ctx.flags.has .checkLockTimeVerify then 1 else 0) 0
    (checkLockTime ctx) := by
  unfold checkLockTime
  split
  next =>
    refine Serves.leave ?_ (Nat.zero_le 1)
    exact (peekNumber_serves Nat.zero_lt_one).bind fun _ => (ensure_serves (by nofun)).bind fun _ =>
      (ask_serves _).bind fun _ => ensure_serves (by nofun)
  next => exact ensure_serves (by nofun)

theorem checkSequence_serves : Serves (if ctx.flags.has .checkSequenceVerify then 1 else 0) 0
    (checkSequence ctx) := by
  unfold checkSequence
  split
  next =>
    refine Serves.leave ?_ (Nat.zero_le 1)
    exact (peekNumber_serves Nat.zero_lt_one).bind fun _ => (ensure_serves (by nofun)).bind fun _ =>
      Serves.ite (Serves.pure ()) ((ask_serves _).bind fun _ => ensure_serves (by nofun))
  next => exact ensure_serves (by nofun)

theorem branch_sated (negated : Bool) (enough : (if before.executing then 1 else 0) ≤ before.stack.length) :
    Leaves 0 (branch ctx negated before) := by
  cases executing : before.executing with
  | false =>
    rw [branch_skipped executing]
    exact Nat.zero_le _
  | true =>
    rw [executing] at enough
    obtain ⟨condition,rest,top⟩ := List.exists_cons_of_length_pos enough
    rw [branch_executed ctx negated executing top]
    split
    next => nofun
    next => exact Nat.zero_le _

theorem otherwise_serves : Serves 0 0 otherwise := by
  refine Serves.get.bind fun state => ?_
  split
  next => exact Serves.modify fun _ => rfl
  next => exact Serves.throw nofun

theorem endBranch_serves : Serves 0 0 endBranch := by
  refine Serves.get.bind fun state => ?_
  split
  next => exact Serves.modify fun _ => rfl
  next => exact Serves.throw nofun

theorem verify_serves : Serves 1 0 verify :=
  (peek_serves Nat.zero_lt_one).bind fun _ => (ensure_serves (by nofun)).bind fun _ =>
    pop_serves.bind fun _ => Serves.pure ()

theorem toAlt_serves : Serves 1 0 toAlt :=
  pop_serves.bind fun _ => Serves.modify fun _ => rfl

theorem fromAlt_serves : Serves 0 0 fromAlt := by
  refine Serves.get.bind fun state => ?_
  split
  next =>
    refine Serves.bind (Serves.modify fun _ => rfl) fun _ => ?_
    exact (push_serves _).leave (Nat.zero_le 1)
  next => exact Serves.throw nofun

theorem shuffle_serves (move : Shuffle) : Serves move.arity 0 (shuffle move) := by
  intro before enough
  rw [shuffle,get_bind_apply]
  cases moved : move.rearrange? before.stack with
  | none => exact absurd enough (Nat.not_le.mpr (Shuffle.rearrange?_eq_none_iff.mp moved))
  | some stack => exact Nat.zero_le _

theorem dupIfTrue_serves : Serves 1 0 dupIfTrue :=
  (peek_serves Nat.zero_lt_one).bind fun _ =>
    Serves.ite ((push_serves _).leave (Nat.zero_le 2)) ((Serves.pure ()).leave (Nat.zero_le 1))

theorem equal_serves (ending : Ending) : Serves 2 0 (equal ending) :=
  (require_serves (Nat.le_refl 2)).bind fun _ => pop_serves.bind fun _ => pop_serves.bind fun _ =>
    conclude_serves ending (by nofun) _

theorem unary_serves (function : UnaryFunction) : Serves 1 0 (unary ctx function) :=
  popNumber_serves.bind fun _ => (push_serves _).leave (Nat.zero_le 1)

theorem popTwo_serves : Serves 2 0 (popTwo ctx) :=
  (require_serves (Nat.le_refl 2)).bind fun _ => popNumber_serves.bind fun _ =>
    popNumber_serves.bind fun _ => Serves.pure _

theorem within_serves : Serves 3 0 (within ctx) :=
  (require_serves (Nat.le_refl 3)).bind fun _ => popNumber_serves.bind fun _ =>
    popNumber_serves.bind fun _ => popNumber_serves.bind fun _ => (push_serves _).leave (Nat.zero_le 1)

theorem digest_serves (function : DigestFunction) : Serves 1 0 (digest function) :=
  pop_serves.bind fun _ => (push_serves _).leave (Nat.zero_le 1)

private theorem judge_serves (success : Bool) (sigs : List Bytes) (ending : Ending) {error : ScriptError}
    (other : error ≠ .invalidStackOperation) : Serves 0 0 (do
      requireNullFail ctx success sigs
      conclude ending error success) :=
  (ensure_serves (by nofun)).bind fun _ => conclude_serves ending other success

theorem checkSig_serves (ending : Ending) : Serves 2 0 (checkSig ctx ending) :=
  (require_serves (Nat.le_refl 2)).bind fun _ => pop_serves.bind fun _ => pop_serves.bind fun _ =>
    Serves.get.bind fun _ => (ofExcept_serves fun _ => scriptCode_finding).bind fun _ =>
      (ofExcept_serves fun _ => Signature.checkTransactionBy_finding).bind fun _ =>
        (ofExcept_serves fun _ => Signature.checkKey_finding).bind fun _ => (ask_serves _).bind fun success =>
          judge_serves success _ ending (by nofun)

theorem checkDataSig_serves (ending : Ending) : Serves 3 0 (checkDataSig ctx ending) := by
  refine (require_serves (Nat.le_refl 3)).bind fun _ => pop_serves.bind fun _ => pop_serves.bind fun _ =>
    pop_serves.bind fun sig => (ofExcept_serves fun _ => Signature.checkDataBy_finding).bind fun _ =>
      (ofExcept_serves fun _ => Signature.checkKey_finding).bind fun _ => ?_
  split
  next => exact (Serves.pure false).bind fun success => judge_serves success _ ending (by nofun)
  next => exact (ask_serves _).bind fun success => judge_serves success _ ending (by nofun)

theorem setColor_serves : Serves 1 0 (setColor ctx) := by
  refine (require_serves (Nat.le_refl 1)).bind fun _ => Serves.get.bind fun _ =>
    (ensure_serves (by nofun)).bind fun _ => (ensure_serves (by nofun)).bind fun _ => Serves.get.bind fun _ =>
      (ensure_serves (by nofun)).bind fun _ => (peek_serves Nat.zero_lt_one).bind fun _ => ?_
  split
  next => exact Serves.throw nofun
  next => exact pop_serves.bind fun _ => Serves.modify fun _ => rfl

end Operations

end Machine

end ColorScript
