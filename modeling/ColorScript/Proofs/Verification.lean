import ColorScript.Proofs.Success

/-! What a verification that succeeds has done. It is cut in three: the two scripts one after
the other, the script of a script digest, and the last look at the stack. -/
namespace ColorScript.Session

/-- The unlocking and the locking script, one after the other. The result is the stack between
them. -/
def unlock (rules : Rules) (unlocking locking : Script) : Action Stack := do
  ensure (!rules.flags.has .sigPushOnly || unlocking.isPushOnly) .sigPushOnly
  evaluate rules unlocking false
  let unlocked := (← get).stack
  evaluate rules locking false
  requireTrueTop
  return unlocked

/-- The script of a script digest, if the locking script pays to one. -/
def redeem (rules : Rules) (unlocking locking : Script) (unlocked : Stack) : Action Unit := do
  if rules.flags.has .p2sh && paysToScript locking then
    ensure unlocking.isPushOnly .sigPushOnly
    evaluateRedeem rules unlocked

def tidy (rules : Rules) : Action Unit := do
  if rules.flags.has .cleanStack then requireCleanStack rules

theorem satisfy_eq (rules : Rules) (unlocking locking : Script) :
    satisfy rules unlocking locking =
      (do
        let unlocked ← unlock rules unlocking locking
        redeem rules unlocking locking unlocked
        tidy rules) := by
  simp only [satisfy,unlock,redeem,tidy,bind_assoc,pure_bind]
  split <;> simp

variable {rules : Rules} {unlocking locking : Script} {before after : Session}

theorem evaluate_success_iff {script : Script} {redeem : Bool} {done : Unit} :
    evaluate rules script redeem before = .ok done after ↔
      ∃ state, Machine.run { rules with script, redeem } before.start = .ok () state ∧
        after = before.absorb (Journal.ofRun { rules with script, redeem } before.start) state := by
  unfold evaluate
  dsimp only
  cases Machine.run { rules with script, redeem } before.start with
  | ok _ state =>
    constructor
    · intro ok
      cases ok
      exact ⟨state,rfl,rfl⟩
    · intro holds
      obtain ⟨_,ran,rfl⟩ := holds
      cases ran
      rfl
  | error error state =>
    constructor
    · intro ok
      cases ok
    · intro holds
      obtain ⟨_,ran,_⟩ := holds
      cases ran

theorem evaluate_failure {script : Script} {redeem : Bool} {error : ScriptError}
    (failed : evaluate rules script redeem before = .error (.failed error) after) :
    ∃ state, Machine.run { rules with script, redeem } before.start = .error error state := by
  unfold evaluate at failed
  dsimp only at failed
  cases ran : Machine.run { rules with script, redeem } before.start with
  | ok _ state =>
    rw [ran] at failed
    cases failed
  | error cause state =>
    rw [ran] at failed
    cases failed
    exact ⟨state,rfl⟩

theorem verify_success_iff :
    verify rules unlocking locking before = .ok () after ↔
      ∃ final, satisfy rules unlocking locking { calls := before.calls, journal := before.journal } =
        .ok () final ∧ after = { final with outcome := .ok } := by
  unfold verify
  cases satisfy rules unlocking locking { calls := before.calls, journal := before.journal } with
  | ok _ final =>
    constructor
    · intro ok
      cases ok
      exact ⟨final,rfl,rfl⟩
    · intro holds
      obtain ⟨_,satisfied,rfl⟩ := holds
      cases satisfied
      rfl
  | error refusal final =>
    constructor
    · intro ok
      cases refusal <;> cases ok
    · intro holds
      obtain ⟨_,satisfied,_⟩ := holds
      cases satisfied

theorem ensure_success_iff {condition : Bool} {error : ScriptError} {done : Unit} :
    ensure condition error before = .ok done after ↔ condition = true ∧ after = before :=
  check_success_iff

theorem requireTrueTop_success_iff {done : Unit} :
    requireTrueTop before = .ok done after ↔
      (before.stack.peek? 0).any Number.isTrue = true ∧ after = before := by
  rw [requireTrueTop,get_bind_apply,ensure_success_iff]

theorem unlock_success_iff {unlocked : Stack} :
    unlock rules unlocking locking before = .ok unlocked after ↔
      (rules.flags.has .sigPushOnly = true → unlocking.isPushOnly = true) ∧
      ∃ middle, evaluate rules unlocking false before = .ok () middle ∧ unlocked = middle.stack ∧
        evaluate rules locking false middle = .ok () after ∧
        (after.stack.peek? 0).any Number.isTrue = true := by
  have pushes : (!rules.flags.has .sigPushOnly || unlocking.isPushOnly) = true ↔
      (rules.flags.has .sigPushOnly = true → unlocking.isPushOnly = true) := by
    cases rules.flags.has .sigPushOnly <;> simp
  simp only [unlock,bind_success_iff,ensure_success_iff,pushes,get_bind_apply,
    requireTrueTop_success_iff,pure_success_iff]
  constructor
  · intro holds
    obtain ⟨_,_,⟨pushes,rfl⟩,_,middle,opened,_,_,locked,_,_,⟨truthy,rfl⟩,rfl,rfl⟩ := holds
    exact ⟨pushes,middle,opened,rfl,locked,truthy⟩
  · intro holds
    obtain ⟨pushes,middle,opened,rfl,locked,truthy⟩ := holds
    exact ⟨(),before,⟨pushes,rfl⟩,(),middle,opened,(),after,locked,(),after,⟨truthy,rfl⟩,rfl,rfl⟩

theorem redeem_success_iff {unlocked : Stack} (known : rules.flags.has .p2sh = true)
    (pays : paysToScript locking = true) :
    redeem rules unlocking locking unlocked before = .ok () after ↔ unlocking.isPushOnly = true ∧
      ∃ top rest, unlocked = top :: rest ∧
        evaluate rules (Script.parse top) true { before with
            stack := rest, journal := before.journal ++ [.redeeming (Script.parse top)] } =
          .ok () after ∧
        (after.stack.peek? 0).any Number.isTrue = true := by
  have chosen : (rules.flags.has .p2sh && paysToScript locking) = true := by rw [known,pays]; rfl
  rw [redeem,if_pos chosen]
  simp only [bind_success_iff,ensure_success_iff]
  constructor
  · intro holds
    obtain ⟨_,_,⟨pushes,rfl⟩,ok⟩ := holds
    cases unlocked with
    | nil => cases ok
    | cons top rest =>
      obtain ⟨_,_,ran,ok⟩ := bind_success (evaluate rules (Script.parse top) true) _ _ _ _ ok
      obtain ⟨truthy,rfl⟩ := requireTrueTop_success_iff.mp ok
      exact ⟨pushes,top,rest,rfl,ran,truthy⟩
  · intro holds
    obtain ⟨pushes,top,rest,rfl,ran,truthy⟩ := holds
    refine ⟨(),before,⟨pushes,rfl⟩,?_⟩
    exact (bind_of_success ran _).trans (requireTrueTop_success_iff.mpr ⟨truthy,rfl⟩)

theorem tidy_success_iff :
    tidy rules before = .ok () after ↔ after = before ∧ (rules.flags.has .cleanStack = true →
      rules.flags.has .p2sh = true ∧ before.stack.length = 1) := by
  unfold tidy requireCleanStack
  cases rules.flags.has .cleanStack with
  | false =>
    constructor
    · intro ok
      cases ok
      exact ⟨rfl,fun clean => nomatch clean⟩
    · intro holds
      obtain ⟨rfl,_⟩ := holds
      rfl
  | true =>
    cases rules.flags.has .p2sh with
    | false =>
      constructor
      · intro ok
        cases ok
      · intro holds
        obtain ⟨_,clean⟩ := holds
        cases (clean rfl).1
    | true =>
      change ensure (decide (before.stack.length = 1)) .cleanStack before = .ok () after ↔ _
      rw [ensure_success_iff,decide_eq_true_eq]
      constructor
      · intro holds
        obtain ⟨single,rfl⟩ := holds
        exact ⟨rfl,fun _ => ⟨rfl,single⟩⟩
      · intro holds
        obtain ⟨rfl,clean⟩ := holds
        exact ⟨(clean rfl).2,rfl⟩

end ColorScript.Session
