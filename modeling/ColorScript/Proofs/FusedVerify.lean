import ColorScript.Proofs.Arithmetic
import ColorScript.Proofs.EnoughItems

/-! Operations that demand a truth value. Each of them is the operation that yields the value, followed by
its verification. The two accept the same with the same state, and where the value is false only the
error tells them apart. -/
namespace ColorScript

/-- The opcode that yields the truth value that an opcode demands, and the error of the demand. -/
def Opcode.demand? : Opcode → Option (Opcode × ScriptError)
  | 0x88 => some (0x87, .equalVerify)
  | 0x9d => some (0x9c, .numEqualVerify)
  | 0xad => some (0xac, .checkSigVerify)
  | 0xaf => some (0xae, .checkMultiSigVerify)
  | 0xbb => some (0xba, .checkDataSigVerify)
  | _ => none

namespace ScriptError

def isDemand : ScriptError → Bool
  | .verify | .equalVerify | .numEqualVerify | .checkSigVerify | .checkMultiSigVerify
  | .checkDataSigVerify => true
  | _ => false

private theorem isDemand_of_isFinding {error : ScriptError} (found : error.isFinding = true) :
    error.isDemand = false := by
  cases error <;> first | rfl | cases found

end ScriptError

namespace Opcode

variable {whole half : Opcode} {own : ScriptError}

private theorem isDemand_of_demand? (fused : whole.demand? = some (half,own)) : own.isDemand = true := by
  unfold demand? at fused
  split at fused
  all_goals cases fused
  all_goals rfl

private theorem isOrdinary_of_demand? (fused : whole.demand? = some (half,own)) :
    whole.isOrdinary = true ∧ half.isOrdinary = true := by
  unfold demand? at fused
  split at fused
  all_goals cases fused
  all_goals exact ⟨by decide,by decide⟩

end Opcode

namespace Machine

/-- A step on the way to a truth value: it leaves the branches alone and demands nothing. -/
abbrev Probes {α : Type} (flow : List Bool) (step : Machine α) : Prop :=
  Keeps (fun state => state.flow = flow) (fun _ => True) (fun error => error.isDemand = false) step

section Steps

variable {ctx : Context} {flow : List Bool}

private theorem ensure_probes {condition : Bool} {error : ScriptError} (other : error.isDemand = false) :
    Probes flow (ensure condition error) := by
  have checked : Keeps (fun state => state.flow = flow) (fun _ => condition = true)
      (fun error => error.isDemand = false) (ensure condition error) := Keeps.check fun _ => other
  exact checked.weaken fun _ _ => trivial

private theorem ofExcept_probes {α : Type} {result : Except ScriptError α}
    (found : ∀ error, result = .error error → error.isFinding = true) : Probes flow (ofExcept result) := by
  cases result with
  | ok value => exact Keeps.pure trivial
  | error error => exact Keeps.throw (ScriptError.isDemand_of_isFinding (found error rfl))

private theorem modify_probes {change : State → State} (kept : ∀ before, (change before).flow = before.flow) :
    Probes flow (modify change) :=
  Keeps.modify fun before held => (kept before).trans held

private theorem orShort_probes {α : Type} {found : Option α} : Probes flow (orShort found) := by
  cases found with
  | some value => exact Keeps.pure trivial
  | none => exact Keeps.throw rfl

private theorem require_probes (n : Nat) : Probes flow (require n) :=
  Keeps.get.bind fun _ _ => ensure_probes rfl

private theorem pop_probes : Probes flow pop := by
  refine Keeps.get.bind fun _ _ => orShort_probes.bind fun _ _ => ?_
  exact Keeps.bind (modify_probes fun _ => rfl) fun _ _ => Keeps.pure trivial

private theorem popMany_probes (n : Nat) : Probes flow (popMany n) := by
  induction n with
  | zero => exact Keeps.pure trivial
  | succ n ih => exact pop_probes.bind fun _ _ => ih.bind fun _ _ => Keeps.pure trivial

private theorem number_probes (size : Nat) (item : Bytes) : Probes flow (number ctx size item) := by
  unfold number
  split
  next => exact Keeps.pure trivial
  next => exact Keeps.throw rfl

private theorem popNumber_probes : Probes flow (popNumber ctx) :=
  pop_probes.bind fun item _ => number_probes _ item

private theorem popTwo_probes : Probes flow (popTwo ctx) :=
  (require_probes 2).bind fun _ _ => popNumber_probes.bind fun _ _ => popNumber_probes.bind fun _ _ =>
    Keeps.pure trivial

private theorem peek_probes (depth : Nat) : Probes flow (peek depth) :=
  Keeps.get.bind fun _ _ => orShort_probes

private theorem peekNumber_probes (depth size : Nat) : Probes flow (peekNumber ctx depth size) :=
  (peek_probes depth).bind fun item _ => number_probes size item

private theorem charge_probes (n : Nat) : Probes flow (charge n) :=
  Keeps.bind (modify_probes fun _ => rfl) fun _ _ => Keeps.get.bind fun _ _ => ensure_probes rfl

private theorem ask_probes (query : Query) : Probes flow (ask ctx query) :=
  Keeps.bind (modify_probes fun _ => rfl) fun _ _ => Keeps.pure trivial

private theorem matchKeys_probes (code : Script) (sigs keys : List Bytes) :
    Probes flow (matchKeys ctx code sigs keys) := by
  induction keys generalizing sigs with
  | nil => cases sigs <;> exact Keeps.pure trivial
  | cons key keys ih =>
    cases sigs with
    | nil => exact Keeps.pure trivial
    | cons sig sigs =>
      refine (ofExcept_probes fun _ => Signature.checkTransactionBy_finding).bind fun _ _ => ?_
      refine (ofExcept_probes fun _ => Signature.checkKey_finding).bind fun _ _ => ?_
      refine (ask_probes _).bind fun success _ => ?_
      exact Keeps.ite (fun _ => Keeps.pure trivial) fun _ => ih _

private theorem multisigCounts_probes : Probes flow (multisigCounts ctx) := by
  refine (require_probes 1).bind fun _ _ => (peekNumber_probes 0 _).bind fun keyCount _ => ?_
  refine (ensure_probes rfl).bind fun _ _ => (charge_probes _).bind fun _ _ => ?_
  refine (require_probes _).bind fun _ _ => (peekNumber_probes _ _).bind fun sigCount _ => ?_
  exact (ensure_probes rfl).bind fun _ _ => (require_probes _).bind fun _ _ => Keeps.pure trivial

end Steps

/-- How a demand ends beside the step that yields the truth value, for a demand in open branches. -/
inductive Demanded (own : ScriptError) (flow : List Bool) :
    (demanding yielding : EStateM.Result ScriptError State Unit) → Prop
  | accepted {after : State} (kept : after.flow = flow) :
    Demanded own flow (.ok () after) (.ok () { after with stack := Number.ofBool true :: after.stack })
  | refused {after : State} (kept : after.flow = flow) :
    Demanded own flow (.error own after) (.ok () { after with stack := Number.ofBool false :: after.stack })
  | failed {error : ScriptError} {after : State} (other : error.isDemand = false) :
    Demanded own flow (.error error after) (.error error after)

/-- A step that demands the truth value that another step yields. -/
def Demands (own : ScriptError) (flow : List Bool) (demanding yielding : Machine Unit) : Prop :=
  ∀ before, before.flow = flow → Demanded own flow (demanding before) (yielding before)

section Demands

variable {ctx : Context} {flow : List Bool} {own : ScriptError}

theorem Demands.bind {α : Type} {head : Machine α} {demanding yielding : α → Machine Unit}
    (probes : Probes flow head) (tail : ∀ value, Demands own flow (demanding value) (yielding value)) :
    Demands own flow (head >>= demanding) (head >>= yielding) := by
  intro before kept
  have ended := probes before kept
  cases done : head before with
  | ok value middle =>
    rw [done] at ended
    rw [bind_of_success done,bind_of_success done]
    exact tail value middle ended.1
  | error error middle =>
    rw [done] at ended
    rw [bind_of_failure done,bind_of_failure done]
    exact .failed ended.2

private theorem conclude_demands (own : ScriptError) (truth : Bool) :
    Demands own flow (conclude .demand own truth) (conclude .yield own truth) := by
  intro before kept
  cases truth with
  | true => exact .accepted kept
  | false => exact .refused kept

private theorem judge_demands (own : ScriptError) (success : Bool) (sigs : List Bytes) :
    Demands own flow
      (do requireNullFail ctx success sigs; conclude .demand own success)
      (do requireNullFail ctx success sigs; conclude .yield own success) :=
  Demands.bind (ensure_probes rfl) fun _ => conclude_demands own success

private theorem equal_demands : Demands .equalVerify flow (equal .demand) (equal .yield) :=
  Demands.bind (require_probes 2) fun _ => Demands.bind pop_probes fun _ => Demands.bind pop_probes fun _ =>
    conclude_demands _ _

private theorem numEqual_demands : Demands .numEqualVerify flow (numEqualVerify ctx) (binary ctx .equal) := by
  refine Demands.bind popTwo_probes fun pair => ?_
  change Demands _ flow _ (push (Number.encode (truthNumber _)))
  rw [Number.encode_truthNumber]
  exact conclude_demands .numEqualVerify _

private theorem checkSig_demands :
    Demands .checkSigVerify flow (checkSig ctx .demand) (checkSig ctx .yield) := by
  refine Demands.bind (require_probes 2) fun _ => Demands.bind pop_probes fun key => ?_
  refine Demands.bind pop_probes fun sig => Demands.bind (Keeps.get.weaken fun _ _ => trivial) fun _ => ?_
  refine Demands.bind (ofExcept_probes fun _ => scriptCode_finding) fun code => ?_
  refine Demands.bind (ofExcept_probes fun _ => Signature.checkTransactionBy_finding) fun _ => ?_
  refine Demands.bind (ofExcept_probes fun _ => Signature.checkKey_finding) fun _ => ?_
  exact Demands.bind (ask_probes _) fun success => judge_demands _ success _

private theorem checkDataSig_demands :
    Demands .checkDataSigVerify flow (checkDataSig ctx .demand) (checkDataSig ctx .yield) := by
  refine Demands.bind (require_probes 3) fun _ => Demands.bind pop_probes fun key => ?_
  refine Demands.bind pop_probes fun message => Demands.bind pop_probes fun sig => ?_
  refine Demands.bind (ofExcept_probes fun _ => Signature.checkDataBy_finding) fun _ => ?_
  refine Demands.bind (ofExcept_probes fun _ => Signature.checkKey_finding) fun _ => ?_
  -- An empty signature is judged without a question.
  cases sig.isEmpty with
  | true => exact Demands.bind (Keeps.pure trivial) fun success => judge_demands _ success _
  | false => exact Demands.bind (ask_probes _) fun success => judge_demands _ success _

private theorem checkMultiSig_demands :
    Demands .checkMultiSigVerify flow (checkMultiSig ctx .demand) (checkMultiSig ctx .yield) := by
  refine Demands.bind multisigCounts_probes fun counts => Demands.bind pop_probes fun _ => ?_
  refine Demands.bind (popMany_probes _) fun keys => Demands.bind pop_probes fun _ => ?_
  refine Demands.bind (popMany_probes _) fun sigs =>
    Demands.bind (Keeps.get.weaken fun _ _ => trivial) fun _ => ?_
  refine Demands.bind (ofExcept_probes fun _ => scriptCode_finding) fun code => ?_
  refine Demands.bind (ensure_probes rfl) fun _ => ?_
  refine Demands.bind (matchKeys_probes code sigs keys) fun left => ?_
  refine Demands.bind (ensure_probes rfl) fun _ => Demands.bind pop_probes fun unused => ?_
  exact Demands.bind (ensure_probes rfl) fun _ => conclude_demands _ _

/-- One case for each opcode that demands a truth value. -/
theorem execute_demands {whole half : Opcode} (fused : whole.demand? = some (half,own)) (place : Nat) :
    Demands own flow (execute ctx place (Operation.ofOpcode whole))
      (execute ctx place (Operation.ofOpcode half)) := by
  unfold Opcode.demand? at fused
  split at fused
  all_goals cases fused
  · exact equal_demands
  · exact numEqual_demands
  · exact checkSig_demands
  · exact checkMultiSig_demands
  · exact checkDataSig_demands

end Demands

/-- How an opcode that demands a truth value ends beside the opcode that yields it and a verification,
which together count some more operations. -/
inductive Fused (own : ScriptError) (more : Nat) :
    (whole parts : EStateM.Result ScriptError State Unit) → Prop
  | accepted (after : State) :
    Fused own more (.ok () after) (.ok () { after with opCount := after.opCount + more })
  | refused (after : State) :
    Fused own more (.error own after)
      (.error .verify
        { after with stack := Number.ofBool false :: after.stack, opCount := after.opCount + more })
  | failed {error : ScriptError} (after : State) (other : error ≠ own ∧ error ≠ .verify) :
    Fused own more (.error error after) (.error error after)

private theorem verify_ofBool {before : State} {truth : Bool} {rest : Stack}
    (top : before.stack = Number.ofBool truth :: rest) :
    verify before = if truth then .ok () { before with stack := rest } else .error .verify before := by
  rw [verify,bind_of_success (peek_success_iff.mpr ⟨by rw [Stack.peek?,top]; rfl,rfl⟩)]
  cases truth with
  | true => exact bind_of_success (pop_cons top) _
  | false => rfl

private theorem Demanded.fused {own : ScriptError} {flow : List Bool} {whole half : Machine Unit} {before : State}
    (demanded : Demanded own flow (whole before) (half before)) (demand : own.isDemand = true)
    (more : Nat) {last : Machine Unit}
    (verifies : ∀ middle, half before = .ok () middle → middle.flow = flow →
      last middle = verify { middle with opCount := middle.opCount + more }) :
    Fused own more (whole before) ((half >>= fun _ => last) before) := by
  generalize ended : whole before = one, halved : half before = two at demanded
  cases demanded with
  | accepted kept =>
    rw [bind_of_success halved,verifies _ halved kept,verify_ofBool rfl]
    exact .accepted _
  | refused kept =>
    rw [bind_of_success halved,verifies _ halved kept,verify_ofBool rfl]
    exact .refused _
  | failed other =>
    rw [bind_of_failure halved]
    refine .failed _ ⟨fun same => ?_,fun same => ?_⟩
    · rw [← same,other] at demand
      cases demand
    · rw [same] at other
      cases other

theorem step_demands {whole half : Opcode} {own : ScriptError} {ctx : Context} {before : State}
    (fused : whole.demand? = some (half,own)) (place : Nat) (executing : before.executing = true) :
    Demanded own before.flow (step ctx place (.op whole) before) (step ctx place (.op half) before) := by
  obtain ⟨wholly,partly⟩ := Opcode.isOrdinary_of_demand? fused
  rw [step_ordinary wholly,step_ordinary partly,if_pos executing,if_pos executing]
  split
  next => exact execute_demands fused place _ rfl
  next => exact .failed rfl

/-- An opcode that demands a truth value is the opcode that yields it and a verification: they accept with
the same state, and where one of them fails the other does so with the same error, except for the two
errors of a value that is false. As chunks they differ by the one more operation that is counted. -/
theorem verify_fused {whole half : Opcode} {own : ScriptError} (fused : whole.demand? = some (half,own))
    (ctx : Context) (place next : Nat) (before : State) :
    Fused own 0 (execute ctx place (Operation.ofOpcode whole) before)
      ((do
        execute ctx place (Operation.ofOpcode half)
        execute ctx next (Operation.ofOpcode 0x69)) before) ∧
    ((∀ middle, step ctx place (.op half) before = .ok () middle → middle.opCount < maxOps) →
      Fused own 1 (step ctx place (.op whole) before)
        ((do
          step ctx place (.op half)
          step ctx next (.op 0x69)) before)) := by
  have demand := Opcode.isDemand_of_demand? fused
  have verifies : Opcode.isOrdinary 0x69 = true := by decide
  refine ⟨(execute_demands fused place before rfl).fused demand 0 fun _ _ _ => rfl,fun room => ?_⟩
  cases executing : before.executing with
  | true =>
    refine (step_demands fused place executing).fused demand 1 fun middle halved kept => ?_
    have taken : middle.executing = true := by
      rw [State.executing,kept]
      exact executing
    rw [step_ordinary verifies,if_pos (room middle halved),if_pos taken]
    rfl
  | false =>
    -- Skipped chunks are only counted.
    obtain ⟨wholly,partly⟩ := Opcode.isOrdinary_of_demand? fused
    have halved := step_ordinary partly ctx place before
    rw [executing,if_neg Bool.false_ne_true] at halved
    rw [step_ordinary wholly,executing,if_neg Bool.false_ne_true]
    split
    next fits =>
      rw [if_pos fits] at halved
      rw [bind_of_success halved,step_ordinary verifies,if_pos (room _ halved)]
      have idle : ¬ State.executing { before with opCount := before.opCount + 1 } = true :=
        Bool.eq_false_iff.mp executing
      rw [if_neg idle]
      exact .accepted _
    next full =>
      rw [if_neg full] at halved
      rw [bind_of_failure halved]
      refine .failed _ ⟨?_,?_⟩
      · rintro rfl
        cases demand
      · intro same
        cases same

/-- A signature that the oracle refuses, with room for two more operations. -/
theorem verify_fused_refusedSignature :
    Fused .checkSigVerify 1
      (step ⟨⟨Flags.empty,Oracle.never⟩,[],false⟩ 0 (.op 0xad) { stack := [[2],[9]], opCount := 199 })
      ((do
        step ⟨⟨Flags.empty,Oracle.never⟩,[],false⟩ 0 (.op 0xac)
        step ⟨⟨Flags.empty,Oracle.never⟩,[],false⟩ 1 (.op 0x69)) { stack := [[2],[9]], opCount := 199 }) ∧
    failsWith .checkSigVerify (step ⟨⟨Flags.empty,Oracle.never⟩,[],false⟩ 0 (.op 0xad)
      { stack := [[2],[9]], opCount := 199 }) = true := by
  refine ⟨(verify_fused rfl ⟨⟨Flags.empty,Oracle.never⟩,[],false⟩ 0 1 _).2 fun middle halved => ?_,?_⟩
  · have within : succeeds (fun after => after.opCount < maxOps)
        (step ⟨⟨Flags.empty,Oracle.never⟩,[],false⟩ 0 (.op 0xac)
          { stack := [[2],[9]], opCount := 199 }) = true := by decide +kernel
    rw [halved] at within
    exact of_decide_eq_true within
  · decide +kernel

end Machine

end ColorScript
