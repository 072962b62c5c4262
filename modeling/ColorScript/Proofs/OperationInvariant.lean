import ColorScript.Proofs.Invariant
import ColorScript.Proofs.NumberSize

/-! Invariants under the operations outside of conditionals. What an operation does to a state is
said once, as the changes that an invariant must respect; the errors it can fail with are
those that the flags switch on, and those that need no flag. -/
namespace ColorScript

/-- Whether a chunk that is no bracket of a conditional can fail with an error in a run. -/
def ScriptError.arises (ctx : Context) : ScriptError → Bool
  | .minimalData => ctx.flags.has .minimalData
  | .sigNullFail => ctx.flags.has .nullFail
  | .sigNullDummy => ctx.flags.has .nullDummy
  | .sigHighS => ctx.flags.has .lowS
  | .sigDer => ctx.flags.has .derSig || ctx.flags.has .lowS || ctx.flags.has .strictEnc
  | .sigHashType | .pubkeyType => ctx.flags.has .strictEnc
  | .discourageUpgradableNops => ctx.flags.has .discourageUpgradableNops
  | .negativeLocktime | .unsatisfiedLocktime =>
    ctx.flags.has .checkLockTimeVerify || ctx.flags.has .checkSequenceVerify
  | .opCodeSeparator | .sigFindAndDelete => ctx.flags.has .constScriptCode
  | .opColorInRedeemScript => ctx.redeem
  | .ok | .evalFalse | .scriptSize | .unbalancedConditional | .minimalIf | .sigPushOnly
  | .cleanStack | .sigBadLength | .opColorUnexpected => false
  | _ => true

namespace Signature

variable {isLow : Bytes → Bool} {ctx : Context} {sig : Bytes} {error : ScriptError}

private theorem checkHashType_arises (failed : checkHashType ctx.flags sig = .error error) :
    error.arises ctx = true := by
  unfold checkHashType at failed
  split at failed
  next refused =>
    cases failed
    exact (Bool.and_eq_true_iff.mp refused).1
  next => cases failed

private theorem checkEcdsaBy_arises (failed : checkEcdsaBy isLow ctx.flags sig = .error error) :
    error.arises ctx = true := by
  unfold checkEcdsaBy at failed
  split at failed
  next refused =>
    cases failed
    exact (Bool.and_eq_true_iff.mp refused).1
  next =>
    split at failed
    next refused =>
      cases failed
      exact (Bool.and_eq_true_iff.mp refused).1
    next => cases failed

private theorem checkTransactionBy_arises (failed : checkTransactionBy isLow ctx.flags sig = .error error) :
    error.arises ctx = true := by
  unfold checkTransactionBy at failed
  split at failed
  next => cases failed
  next =>
    split at failed
    next => exact checkHashType_arises failed
    next =>
      cases der : checkEcdsaBy isLow ctx.flags sig with
      | error fault =>
        rw [der] at failed
        cases failed
        exact checkEcdsaBy_arises der
      | ok _ =>
        rw [der] at failed
        exact checkHashType_arises failed

private theorem checkDataBy_arises (failed : checkDataBy isLow ctx.flags sig = .error error) :
    error.arises ctx = true := by
  unfold checkDataBy at failed
  split at failed
  next => cases failed
  next => exact checkEcdsaBy_arises failed

private theorem checkKey_arises {key : Bytes} (failed : checkKey ctx.flags key = .error error) :
    error.arises ctx = true := by
  unfold checkKey at failed
  split at failed
  next refused =>
    cases failed
    exact (Bool.and_eq_true_iff.mp refused).1
  next => cases failed

end Signature

namespace Machine

private theorem withoutSignature_arises {ctx : Context} {code : Script} {sig : Bytes} {error : ScriptError}
    (failed : withoutSignature ctx.flags code sig = .error error) : error.arises ctx = true := by
  unfold withoutSignature at failed
  split at failed
  next =>
    cases failed
    rfl
  next =>
    dsimp only at failed
    split at failed
    next refused =>
      cases failed
      exact refused.2
    next => cases failed

private theorem scriptCode_arises {ctx : Context} {codeStart : Nat} {sigs : List Bytes} {error : ScriptError}
    (failed : scriptCode ctx codeStart sigs = .error error) : error.arises ctx = true := by
  unfold scriptCode at failed
  generalize ctx.script.subscript codeStart = code at failed
  induction sigs generalizing code with
  | nil => cases failed
  | cons sig sigs ih =>
    rw [List.foldlM_cons] at failed
    cases deleted : withoutSignature ctx.flags code sig with
    | error fault =>
      rw [deleted] at failed
      cases failed
      exact withoutSignature_arises deleted
    | ok stripped =>
      rw [deleted] at failed
      exact ih stripped failed

/-- A step that keeps an invariant and fails only with errors that arise in the run. -/
abbrev Respects (ctx : Context) (holds : State → Prop) {α : Type} (values : α → Prop)
    (step : Machine α) : Prop :=
  Keeps holds values (fun error => error.arises ctx = true) step

/-- An invariant that every change of the stack and of the counts respects. All items on the stack are
sound, and short items are, as those are that operations make. -/
structure Settled (ctx : Context) (sound : Bytes → Prop) (holds : State → Prop) : Prop where
  stack {state : State} : holds state → ∀ item ∈ state.stack, sound item
  setStack {state : State} {stack : Stack} :
    holds state → (∀ item ∈ stack, sound item) → holds { state with stack }
  count {state : State} (n : Nat) : holds state → holds { state with opCount := state.opCount + n }
  record {state : State} (query : Query) :
    holds state → holds { state with calls := state.calls ++ [⟨query,ctx.oracle query⟩] }
  short {item : Bytes} : item.length ≤ maxItem → sound item
  size {item : Bytes} : sound item → sound (Number.encode item.length)

/-- An invariant that every change of the alternative stack respects as well. -/
structure Steady (ctx : Context) (sound : Bytes → Prop) (holds : State → Prop) : Prop
    extends Settled ctx sound holds where
  alt {state : State} : holds state → ∀ item ∈ state.alt, sound item
  setAlt {state : State} {alt : Stack} :
    holds state → (∀ item ∈ alt, sound item) → holds { state with alt }

/-- An invariant that every change respects which an operation outside of conditionals makes. -/
structure Stable (ctx : Context) (sound : Bytes → Prop) (holds : State → Prop) : Prop
    extends Steady ctx sound holds where
  separate {state : State} (codeStart : Nat) : holds state → holds { state with codeStart }
  paint {state : State} (color : ColorId) : holds state → holds { state with color := some color }

section Steps

variable {ctx : Context} {holds : State → Prop}

theorem ensure_respects {condition : Bool} {error : ScriptError}
    (fails : condition = false → error.arises ctx = true) :
    Respects ctx holds (fun _ => condition = true) (ensure condition error) :=
  Keeps.check fails

private theorem ofExcept_respects {α : Type} {result : Except ScriptError α}
    (fails : ∀ error, result = .error error → error.arises ctx = true) :
    Respects ctx holds (fun value => result = .ok value) (ofExcept result) := by
  cases result with
  | ok value => exact Keeps.pure rfl
  | error error => exact Keeps.throw (fails error rfl)

private theorem orShort_respects {α : Type} {found : Option α} :
    Respects ctx holds (fun value => found = some value) (orShort found) := by
  cases found with
  | some value => exact Keeps.pure rfl
  | none => exact Keeps.throw rfl

private theorem require_respects (n : Nat) : Respects ctx holds (fun _ => True) (require n) :=
  Keeps.get.bind fun _ _ => (ensure_respects fun _ => rfl).weaken fun _ _ => trivial

private theorem number_respects (size : Nat) (item : Bytes) :
    Respects ctx holds
      (fun n => Number.operand size (ctx.flags.has .minimalData) item = .ok n)
      (number ctx size item) := by
  unfold number
  cases Number.operand size (ctx.flags.has .minimalData) item with
  | ok n => exact Keeps.pure rfl
  | error error => exact Keeps.throw rfl

theorem reservedNothing_respects : Respects ctx holds (fun _ => True) (reservedNothing ctx) := by
  refine (ensure_respects fun refused => ?_).weaken fun _ _ => trivial
  simpa [ScriptError.arises] using refused

private theorem checkKeyed_respects (sig key : Bytes) {α : Type} {values : α → Prop} {next : Machine α}
    (tail : Respects ctx holds values next) :
    Respects ctx holds values (do
      ofExcept (Signature.checkTransaction ctx.flags sig)
      ofExcept (Signature.checkKey ctx.flags key)
      next) :=
  (ofExcept_respects fun _ => Signature.checkTransactionBy_arises).bind fun _ _ =>
    (ofExcept_respects fun _ => Signature.checkKey_arises).bind fun _ _ => tail

private theorem requireNullFail_respects (success : Bool) (sigs : List Bytes) :
    Respects ctx holds (fun _ => True) (requireNullFail ctx success sigs) := by
  refine (ensure_respects fun refused => ?_).weaken fun _ _ => trivial
  simp only [Bool.or_eq_false_iff,Bool.not_eq_false'] at refused
  exact refused.1.2

end Steps

namespace Settled

variable {ctx : Context} {sound : Bytes → Prop} {holds : State → Prop}

theorem number (settled : Settled ctx sound holds) {n : Int} (bound : n.natAbs < 2 ^ 64) :
    sound (Number.encode n) := by
  have size : (Number.encode n).length ≤ 8 + 1 := Number.length_encode_le bound
  exact settled.short (Nat.le_trans size (by decide))

theorem truth (settled : Settled ctx sound holds) (truth : Bool) : sound (Number.ofBool truth) := by
  apply settled.short
  cases truth <;> decide

theorem digest (settled : Settled ctx sound holds) (function : DigestFunction) (message : Bytes) :
    sound (function.apply message) :=
  settled.short (Nat.le_trans (function.length_apply_le message) (by decide))

private theorem setStack_respects (settled : Settled ctx sound holds) {stack : Stack}
    (items : ∀ item ∈ stack, sound item) :
    Respects ctx holds (fun _ => True) (Machine.setStack stack) :=
  Keeps.modify fun _ held => settled.setStack held items

theorem push_respects (settled : Settled ctx sound holds) {item : Bytes} (fine : sound item) :
    Respects ctx holds (fun _ => True) (push item) :=
  Keeps.get.bind fun _ held =>
    settled.setStack_respects (List.forall_mem_cons.mpr ⟨fine,settled.stack held⟩)

theorem peek_respects (settled : Settled ctx sound holds) (depth : Nat) :
    Respects ctx holds sound (peek depth) :=
  Keeps.get.bind fun _ held =>
    orShort_respects.weaken fun _ found => settled.stack held _ (List.mem_of_getElem? found)

private theorem remove_respects (settled : Settled ctx sound holds) {α : Type} {values : α → Prop}
    (depth : Nat) {next : Bytes × Stack → Machine α}
    (tail : ∀ item rest, sound item → (∀ other ∈ rest, sound other) →
      Respects ctx holds values (next (item,rest))) :
    Respects ctx holds values (do next (← orShort ((← get).stack.remove? depth))) := by
  refine Keeps.get.bind fun state held => orShort_respects.bind ?_
  rintro ⟨item,rest⟩ found
  simp only [Stack.remove?,Option.map_eq_some_iff,Prod.mk.injEq] at found
  obtain ⟨item,found,rfl,rfl⟩ := found
  exact tail item _ (settled.stack held _ (List.mem_of_getElem? found)) fun other member =>
    settled.stack held other (List.mem_of_mem_eraseIdx member)

private theorem pop_respects (settled : Settled ctx sound holds) : Respects ctx holds sound pop :=
  settled.remove_respects 0 fun _ _ fine others =>
    (settled.setStack_respects others).bind fun _ _ => Keeps.pure fine

private theorem popMany_respects (settled : Settled ctx sound holds) (n : Nat) :
    Respects ctx holds (fun _ => True) (popMany n) := by
  induction n with
  | zero => exact Keeps.pure trivial
  | succ n ih => exact settled.pop_respects.bind fun _ _ => ih.bind fun _ _ => Keeps.pure trivial

private theorem popNumber_respects (settled : Settled ctx sound holds) :
    Respects ctx holds (fun n => n.natAbs < 2 ^ 63) (popNumber ctx) :=
  settled.pop_respects.bind fun item _ =>
    (number_respects _ item).weaken fun _ => Number.natAbs_lt_of_operand

private theorem peekNumber_respects (settled : Settled ctx sound holds) (depth size : Nat) :
    Respects ctx holds (fun _ => True) (peekNumber ctx depth size) :=
  (settled.peek_respects depth).bind fun item _ =>
    (number_respects size item).weaken fun _ _ => trivial

private theorem charge_respects (settled : Settled ctx sound holds) (n : Nat) :
    Respects ctx holds (fun _ => True) (charge n) :=
  (Keeps.modify fun _ held => settled.count n held).bind fun _ _ => Keeps.get.bind fun _ _ =>
    (ensure_respects fun _ => rfl).weaken fun _ _ => trivial

private theorem ask_respects (settled : Settled ctx sound holds) (query : Query) :
    Respects ctx holds (fun _ => True) (ask ctx query) :=
  (Keeps.modify fun _ held => settled.record query held).bind fun _ _ => Keeps.pure trivial

private theorem conclude_respects (settled : Settled ctx sound holds) (ending : Ending) {error : ScriptError}
    (fails : error.arises ctx = true) (truth : Bool) :
    Respects ctx holds (fun _ => True) (conclude ending error truth) := by
  cases ending with
  | yield => exact settled.push_respects (settled.truth truth)
  | demand => exact (ensure_respects fun _ => fails).weaken fun _ _ => trivial

theorem checkLockTime_respects (settled : Settled ctx sound holds) :
    Respects ctx holds (fun _ => True) (checkLockTime ctx) := by
  refine Keeps.ite (fun set => ?_) fun _ => reservedNothing_respects
  have fails (error : ScriptError)
      (late : error = .negativeLocktime ∨ error = .unsatisfiedLocktime) :
      error.arises ctx = true := by
    rcases late with rfl | rfl <;> simp [ScriptError.arises,set]
  refine (settled.peekNumber_respects 0 _).bind fun n _ => ?_
  refine (ensure_respects fun _ => fails _ (.inl rfl)).bind fun _ _ => ?_
  refine (settled.ask_respects _).bind fun answer _ => ?_
  exact (ensure_respects fun _ => fails _ (.inr rfl)).weaken fun _ _ => trivial

theorem checkSequence_respects (settled : Settled ctx sound holds) :
    Respects ctx holds (fun _ => True) (checkSequence ctx) := by
  refine Keeps.ite (fun set => ?_) fun _ => reservedNothing_respects
  have fails (error : ScriptError)
      (late : error = .negativeLocktime ∨ error = .unsatisfiedLocktime) :
      error.arises ctx = true := by
    rcases late with rfl | rfl <;> simp [ScriptError.arises,set]
  refine (settled.peekNumber_respects 0 _).bind fun n _ => ?_
  refine (ensure_respects fun _ => fails _ (.inl rfl)).bind fun _ _ => ?_
  refine Keeps.ite (fun _ => Keeps.pure trivial) fun _ => ?_
  refine (settled.ask_respects _).bind fun answer _ => ?_
  exact (ensure_respects fun _ => fails _ (.inr rfl)).weaken fun _ _ => trivial

theorem verify_respects (settled : Settled ctx sound holds) :
    Respects ctx holds (fun _ => True) verify :=
  (settled.peek_respects 0).bind fun _ _ => (ensure_respects fun _ => rfl).bind fun _ _ =>
    settled.pop_respects.bind fun _ _ => Keeps.pure trivial

private theorem mem_of_rearrange? {move : Shuffle} {stack moved : Stack}
    (found : move.rearrange? stack = some moved) : ∀ item ∈ moved, item ∈ stack := by
  unfold Shuffle.rearrange? at found
  split at found
  all_goals cases found
  all_goals simp +contextual

theorem shuffle_respects (settled : Settled ctx sound holds) (move : Shuffle) :
    Respects ctx holds (fun _ => True) (shuffle move) :=
  Keeps.get.bind fun _ held => orShort_respects.bind fun _ found =>
    settled.setStack_respects fun item member =>
      settled.stack held item (mem_of_rearrange? found item member)

theorem dupIfTrue_respects (settled : Settled ctx sound holds) :
    Respects ctx holds (fun _ => True) dupIfTrue :=
  (settled.peek_respects 0).bind fun _ fine =>
    Keeps.ite (fun _ => settled.push_respects fine) fun _ => Keeps.pure trivial

theorem fetch_respects (settled : Settled ctx sound holds) (removed : Bool) :
    Respects ctx holds (fun _ => True) (fetch ctx removed) := by
  refine (require_respects 2).bind fun _ _ => settled.popNumber_respects.bind fun n _ => ?_
  refine (ensure_respects fun _ => rfl).bind fun _ _ => Keeps.ite (fun _ => ?_) fun _ => ?_
  · refine settled.remove_respects _ fun item rest fine others => ?_
    exact settled.setStack_respects (List.forall_mem_cons.mpr ⟨fine,others⟩)
  · exact (settled.peek_respects _).bind fun item fine => settled.push_respects fine

theorem equal_respects (settled : Settled ctx sound holds) (ending : Ending) :
    Respects ctx holds (fun _ => True) (equal ending) :=
  (require_respects 2).bind fun _ _ => settled.pop_respects.bind fun _ _ =>
    settled.pop_respects.bind fun _ _ => settled.conclude_respects ending rfl _

theorem unary_respects (settled : Settled ctx sound holds) (function : UnaryFunction) :
    Respects ctx holds (fun _ => True) (unary ctx function) :=
  settled.popNumber_respects.bind fun _ bound =>
    settled.push_respects (settled.number (function.natAbs_apply_lt bound))

private theorem popTwo_respects (settled : Settled ctx sound holds) :
    Respects ctx holds (fun pair => pair.1.natAbs < 2 ^ 63 ∧ pair.2.natAbs < 2 ^ 63) (popTwo ctx) :=
  (require_respects 2).bind fun _ _ => settled.popNumber_respects.bind fun _ second =>
    settled.popNumber_respects.bind fun _ first => Keeps.pure ⟨first,second⟩

theorem binary_respects (settled : Settled ctx sound holds) (function : BinaryFunction) :
    Respects ctx holds (fun _ => True) (binary ctx function) :=
  settled.popTwo_respects.bind fun _ bounds =>
    settled.push_respects (settled.number (function.natAbs_apply_lt bounds.1 bounds.2))

theorem numEqualVerify_respects (settled : Settled ctx sound holds) :
    Respects ctx holds (fun _ => True) (numEqualVerify ctx) :=
  settled.popTwo_respects.bind fun _ _ => (ensure_respects fun _ => rfl).weaken fun _ _ => trivial

theorem within_respects (settled : Settled ctx sound holds) :
    Respects ctx holds (fun _ => True) (within ctx) :=
  (require_respects 3).bind fun _ _ => settled.popNumber_respects.bind fun _ _ =>
    settled.popNumber_respects.bind fun _ _ => settled.popNumber_respects.bind fun _ _ =>
      settled.push_respects (settled.truth _)

theorem digest_respects (settled : Settled ctx sound holds) (function : DigestFunction) :
    Respects ctx holds (fun _ => True) (Machine.digest function) :=
  settled.pop_respects.bind fun item _ => settled.push_respects (settled.digest function item)

theorem checkSig_respects (settled : Settled ctx sound holds) (ending : Ending) :
    Respects ctx holds (fun _ => True) (checkSig ctx ending) := by
  refine (require_respects 2).bind fun _ _ => settled.pop_respects.bind fun key _ => ?_
  refine settled.pop_respects.bind fun sig _ => Keeps.get.bind fun _ _ => ?_
  refine (ofExcept_respects fun _ => scriptCode_arises).bind fun code _ => ?_
  refine checkKeyed_respects sig key ((settled.ask_respects _).bind fun success _ => ?_)
  exact (requireNullFail_respects _ _).bind fun _ _ => settled.conclude_respects ending rfl _

theorem checkDataSig_respects (settled : Settled ctx sound holds) (ending : Ending) :
    Respects ctx holds (fun _ => True) (checkDataSig ctx ending) := by
  refine (require_respects 3).bind fun _ _ => settled.pop_respects.bind fun key _ => ?_
  refine settled.pop_respects.bind fun message _ => settled.pop_respects.bind fun sig _ => ?_
  refine (ofExcept_respects fun _ => Signature.checkDataBy_arises).bind fun _ _ => ?_
  refine (ofExcept_respects fun _ => Signature.checkKey_arises).bind fun _ _ => ?_
  have judged (success : Bool) : Respects ctx holds (fun _ => True) (do
      requireNullFail ctx success [sig]
      conclude ending .checkDataSigVerify success) :=
    (requireNullFail_respects _ _).bind fun _ _ => settled.conclude_respects ending rfl _
  refine Keeps.ite (fun _ => ?_) fun _ => (settled.ask_respects _).bind fun success _ => judged success
  have refused : Respects ctx holds (fun _ => True) (pure false) := Keeps.pure trivial
  exact refused.bind fun success _ => judged success

private theorem matchKeys_respects (settled : Settled ctx sound holds) (code : Script)
    (sigs keys : List Bytes) : Respects ctx holds (fun _ => True) (matchKeys ctx code sigs keys) := by
  induction keys generalizing sigs with
  | nil => cases sigs <;> exact Keeps.pure trivial
  | cons key keys ih =>
    cases sigs with
    | nil => exact Keeps.pure trivial
    | cons sig sigs =>
      refine checkKeyed_respects sig key ((settled.ask_respects _).bind fun success _ => ?_)
      exact Keeps.ite (fun _ => Keeps.pure trivial) fun _ => ih _

private theorem multisigCounts_respects (settled : Settled ctx sound holds) :
    Respects ctx holds (fun _ => True) (multisigCounts ctx) := by
  refine (require_respects 1).bind fun _ _ => (settled.peekNumber_respects 0 _).bind fun keyCount _ => ?_
  refine (ensure_respects fun _ => rfl).bind fun _ _ => (settled.charge_respects _).bind fun _ _ => ?_
  refine (require_respects _).bind fun _ _ => (settled.peekNumber_respects _ _).bind fun sigCount _ => ?_
  refine (ensure_respects fun _ => rfl).bind fun _ _ => (require_respects _).bind fun _ _ => ?_
  exact Keeps.pure trivial

theorem checkMultiSig_respects (settled : Settled ctx sound holds) (ending : Ending) :
    Respects ctx holds (fun _ => True) (checkMultiSig ctx ending) := by
  refine settled.multisigCounts_respects.bind fun counts _ => settled.pop_respects.bind fun _ _ => ?_
  refine (settled.popMany_respects _).bind fun keys _ => settled.pop_respects.bind fun _ _ => ?_
  refine (settled.popMany_respects _).bind fun sigs _ => Keeps.get.bind fun _ _ => ?_
  refine (ofExcept_respects fun _ => scriptCode_arises).bind fun code _ => ?_
  refine (ensure_respects fun _ => rfl).bind fun _ _ => ?_
  refine (settled.matchKeys_respects code sigs keys).bind fun left _ => ?_
  refine (requireNullFail_respects _ _).bind fun _ _ => settled.pop_respects.bind fun unused _ => ?_
  refine (ensure_respects fun refused => ?_).bind fun _ _ => settled.conclude_respects ending rfl _
  simp only [Bool.or_eq_false_iff,Bool.not_eq_false'] at refused
  exact refused.1

end Settled

namespace Steady

variable {ctx : Context} {sound : Bytes → Prop} {holds : State → Prop}

theorem toAlt_respects (steady : Steady ctx sound holds) :
    Respects ctx holds (fun _ => True) toAlt :=
  steady.pop_respects.bind fun _ fine => Keeps.modify fun _ held =>
    steady.setAlt held (List.forall_mem_cons.mpr ⟨fine,steady.alt held⟩)

theorem fromAlt_respects (steady : Steady ctx sound holds) :
    Respects ctx holds (fun _ => True) fromAlt := by
  refine Keeps.get.bind fun state held => ?_
  have items := steady.alt held
  cases top : state.alt with
  | nil => exact Keeps.throw rfl
  | cons item rest =>
    rw [top,List.forall_mem_cons] at items
    refine (Keeps.modify fun _ held => steady.setAlt held items.2).bind fun _ _ => ?_
    exact steady.push_respects items.1

end Steady

theorem Stable.setColor_respects {ctx : Context} {sound : Bytes → Prop} {holds : State → Prop}
    (stable : Stable ctx sound holds) :
    Respects ctx holds (fun _ => True) (setColor ctx) := by
  refine (require_respects 1).bind fun _ _ => Keeps.get.bind fun _ _ => ?_
  refine (ensure_respects fun _ => rfl).bind fun _ _ => ?_
  refine (ensure_respects fun plain => ?_).bind fun _ _ => Keeps.get.bind fun _ _ => ?_
  · simpa [ScriptError.arises] using plain
  refine (ensure_respects fun _ => rfl).bind fun _ _ => (stable.peek_respects 0).bind fun item _ => ?_
  cases ColorId.ofBytes item with
  | error fault => exact Keeps.throw rfl
  | ok color =>
    exact stable.pop_respects.bind fun _ _ => Keeps.modify fun _ held => stable.paint color held

end Machine

end ColorScript
