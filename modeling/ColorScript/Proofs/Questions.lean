import Mathlib.Algebra.Group.Int.Defs
import ColorScript.Proofs.Footprint
import ColorScript.Proofs.NumberSize

/-! The questions that the operations ask the oracle. They are about items on top of the stack whose
encodings have been checked before, and there are no more of them than operations are counted. -/
namespace ColorScript

/-- What is checked of a question before it is asked. -/
def Query.WellFormed (flags : Flags) : Query → Prop
  | .signature sig key _ =>
    Signature.checkTransaction flags sig = .ok () ∧ Signature.checkKey flags key = .ok ()
  | .dataSignature sig key _ =>
    sig ≠ [] ∧ Signature.checkData flags sig = .ok () ∧ Signature.checkKey flags key = .ok ()
  | .lockTime n => flags.has .checkLockTimeVerify = true ∧ 0 ≤ n ∧ n < 2 ^ 39
  | .sequence n =>
    flags.has .checkSequenceVerify = true ∧ 0 ≤ n ∧ n < 2 ^ 39 ∧ n.toNat.testBit 31 = false

namespace Machine

/-- The questions that an operation may ask about a stack. The code of a signature is that from a
place on, without the signatures that the operation checks. -/
inductive Asks (ctx : Context) (codeStart : Nat) (stack : Stack) : Operation → Query → Prop
  | lockTime {top : Bytes} {rest : Stack} {n : Int} (items : stack = top :: rest)
      (read : Number.decode top = .ok n) : Asks ctx codeStart stack .checkLockTime (.lockTime n)
  | sequence {top : Bytes} {rest : Stack} {n : Int} (items : stack = top :: rest)
      (read : Number.decode top = .ok n) : Asks ctx codeStart stack .checkSequence (.sequence n)
  | signature {ending : Ending} {sig key : Bytes} {rest : Stack} {code : Script}
      (items : stack = key :: sig :: rest) (coded : scriptCode ctx codeStart [sig] = .ok code) :
      Asks ctx codeStart stack (.checkSig ending) (.signature sig key code)
  | dataSignature {ending : Ending} {sig message key : Bytes} {rest : Stack}
      (items : stack = key :: message :: sig :: rest) :
      Asks ctx codeStart stack (.checkDataSig ending)
        (.dataSignature sig key (Digest.sha256 message).val)
  /-- Any of several signatures is tried on any of several keys. -/
  | oneOfSeveral {ending : Ending} {keyCount sigCount sig key : Bytes} {keys sigs rest : List Bytes}
      {code : Script} (items : stack = keyCount :: (keys ++ sigCount :: (sigs ++ rest)))
      (keysCounted : Number.decode keyCount = .ok keys.length)
      (sigsCounted : Number.decode sigCount = .ok sigs.length)
      (coded : scriptCode ctx codeStart sigs.reverse = .ok code)
      (schemes : ∀ first ∈ sigs, ∀ second ∈ sigs, first ≠ [] → second ≠ [] →
        Signature.transactionScheme first = Signature.transactionScheme second)
      (ofSigs : sig ∈ sigs) (ofKeys : key ∈ keys) :
      Asks ctx codeStart stack (.checkMultiSig ending) (.signature sig key code)

/-- The questions that an operation may ask in a state, and only after they have been checked. -/
def Poses (ctx : Context) (before : State) (operation : Operation) (query : Query) : Prop :=
  query.WellFormed ctx.flags ∧ Asks ctx before.codeStart before.stack operation query

variable {ctx : Context} {before after : State}

theorem number_success_iff {size : Nat} {item : Bytes} {n : Int} :
    number ctx size item before = .ok n after ↔
      Number.operand size (ctx.flags.has .minimalData) item = .ok n ∧ after = before := by
  unfold number
  cases Number.operand size (ctx.flags.has .minimalData) item with
  | ok m => rw [pure_success_iff,Except.ok.injEq,eq_comm]
  | error error =>
    constructor
    · intro ok
      cases ok
    · rintro ⟨impossible,_⟩
      cases impossible

theorem peekNumber_success_iff {depth size : Nat} {n : Int} :
    peekNumber ctx depth size before = .ok n after ↔ ∃ item, before.stack.peek? depth = some item ∧
      Number.operand size (ctx.flags.has .minimalData) item = .ok n ∧ after = before := by
  simp only [peekNumber,bind_success_iff,peek_success_iff,number_success_iff]
  constructor
  · rintro ⟨item,_,⟨found,rfl⟩,read,rfl⟩
    exact ⟨item,found,read,rfl⟩
  · rintro ⟨item,found,read,rfl⟩
    exact ⟨item,after,⟨found,rfl⟩,read,rfl⟩

theorem popNumber_read {top : Bytes} {rest : Stack} {n : Int} (items : before.stack = top :: rest)
    (read : Number.operand Number.operandSize (ctx.flags.has .minimalData) top = .ok n) :
    popNumber ctx before = .ok n { before with stack := rest } := by
  rw [popNumber,bind_of_success (pop_cons items),number,read]
  rfl

theorem popNumber_unread {top : Bytes} {rest : Stack} {fault : CodecError} (items : before.stack = top :: rest)
    (unread : Number.operand Number.operandSize (ctx.flags.has .minimalData) top = .error fault) :
    popNumber ctx before = .error .unknownError { before with stack := rest } := by
  rw [popNumber,bind_of_success (pop_cons items),number,unread]
  rfl

theorem popMany_success_iff {n : Nat} {items : List Bytes} :
    popMany n before = .ok items after ↔ ∃ rest, before.stack = items ++ rest ∧ items.length = n ∧
      after = { before with stack := rest } := by
  induction n generalizing before after items with
  | zero =>
    rw [popMany,pure_success_iff]
    constructor
    · rintro ⟨rfl,rfl⟩
      exact ⟨after.stack,rfl,rfl,rfl⟩
    · rintro ⟨rest,split,none,rfl⟩
      obtain rfl := List.length_eq_zero_iff.mp none
      rw [List.nil_append] at split
      exact ⟨rfl,by rw [← split]⟩
  | succ n ih =>
    simp only [popMany,bind_success_iff,pop_success_iff,ih,pure_success_iff]
    constructor
    · rintro ⟨item,_,⟨below,top,rfl⟩,others,_,⟨rest,split,count,rfl⟩,rfl,rfl⟩
      exact ⟨rest,top.trans (congrArg (item :: ·) split),congrArg Nat.succ count,rfl⟩
    · rintro ⟨rest,split,count,rfl⟩
      cases items with
      | nil => cases count
      | cons item others =>
        exact ⟨item,_,⟨others ++ rest,split,rfl⟩,others,_,
          ⟨rest,rfl,Nat.succ.inj count,rfl⟩,rfl,rfl⟩

theorem peek?_zero {stack : Stack} {top : Bytes} (found : stack.peek? 0 = some top) :
    ∃ rest, stack = top :: rest :=
  List.head?_eq_some_iff.mp (List.head?_eq_getElem?.trans found)

private theorem lt_of_lockTime {minimal : Bool} {top : Bytes} {n : Int}
    (read : Number.operand Number.lockTimeSize minimal top = .ok n) : n < 2 ^ 39 := by
  have bound : n.natAbs < 128 * 256 ^ 4 := Number.natAbs_lt_of_operand_size read
  omega

theorem checkLockTime_moved (ctx : Context) (before : State) :
    Moved ctx.oracle (Poses ctx before .checkLockTime) 0 1 before
      (final (checkLockTime ctx before)) := by
  unfold checkLockTime
  split
  next set =>
    refine (peekNumber_looks ctx 0 _).followed fun n looked => ?_
    obtain ⟨top,found,read,_⟩ := peekNumber_success_iff.mp looked
    obtain ⟨rest,items⟩ := peek?_zero found
    refine (ensure_looks _ _).followed fun _ passed => ?_
    have positive := (ensure_success_iff.mp passed).1
    have formed : Query.WellFormed ctx.flags (.lockTime n) :=
      ⟨set,of_decide_eq_true positive,lt_of_lockTime read⟩
    exact (ask_moves ⟨formed,.lockTime items (Number.decode_of_operand read).2⟩).look
      (fun _ => ensure_looks _ _) before
  next => exact (reservedNothing_looks ctx).moves before

theorem checkSequence_moved (ctx : Context) (before : State) :
    Moved ctx.oracle (Poses ctx before .checkSequence) 0 1 before
      (final (checkSequence ctx before)) := by
  unfold checkSequence
  split
  next set =>
    refine (peekNumber_looks ctx 0 _).followed fun n looked => ?_
    obtain ⟨top,found,read,_⟩ := peekNumber_success_iff.mp looked
    obtain ⟨rest,items⟩ := peek?_zero found
    refine (ensure_looks _ _).followed fun _ passed => ?_
    have positive := (ensure_success_iff.mp passed).1
    split
    next => exact (Looks.pure ()).moves before
    next on =>
      have formed : Query.WellFormed ctx.flags (.sequence n) :=
        ⟨set,of_decide_eq_true positive,lt_of_lockTime read,Bool.eq_false_iff.mpr on⟩
      exact (ask_moves ⟨formed,.sequence items (Number.decode_of_operand read).2⟩).look
        (fun _ => ensure_looks _ _) before
  next => exact (reservedNothing_looks ctx).moves before

private theorem checked_followed {asks : Query → Prop} {items questions : Nat} {α : Type}
    {ofSig ofKey : Except ScriptError Unit} {next : Machine α}
    (tail : ofSig = .ok () → ofKey = .ok () →
      Moved ctx.oracle asks items questions before (final (next before))) :
    Moved ctx.oracle asks items questions before (final ((do
      ofExcept ofSig
      ofExcept ofKey
      next) before)) := by
  refine (ofExcept_looks _).followed fun _ sigChecked => (ofExcept_looks _).followed fun _ keyChecked => ?_
  exact tail (ofExcept_success_iff.mp sigChecked).1 (ofExcept_success_iff.mp keyChecked).1

private theorem judge_moves {asks : Query → Prop} (ending : Ending) (error : ScriptError) (success : Bool)
    (sigs : List Bytes) :
    Moves ctx.oracle asks 1 0 (do
      requireNullFail ctx success sigs
      conclude ending error success) :=
  (ensure_looks _ _).seq fun _ => conclude_moves ending error success

theorem checkSig_moved (ctx : Context) (ending : Ending) (before : State) :
    Moved ctx.oracle (Poses ctx before (.checkSig ending)) 1 1 before
      (final (checkSig ctx ending before)) := by
  refine (require_looks 2).followed fun _ _ => ?_
  refine pop_moves.followed fun key _ popped => ?_
  obtain ⟨below,first,rfl⟩ := pop_success_iff.mp popped
  refine pop_moves.followed fun sig _ popped => ?_
  obtain ⟨rest,second,rfl⟩ := pop_success_iff.mp popped
  have items : before.stack = key :: sig :: rest := first.trans (congrArg (key :: ·) second)
  refine Looks.get.followed fun state looked => ?_
  cases looked
  refine (ofExcept_looks _).followed fun code done => ?_
  have coded := (ofExcept_success_iff.mp done).1
  refine checked_followed fun sigRight keyRight => ?_
  exact (ask_moves ⟨⟨sigRight,keyRight⟩,.signature items coded⟩).bind
    (fun success => judge_moves ending _ success [sig]) _

theorem checkDataSig_moved (ctx : Context) (ending : Ending) (before : State) :
    Moved ctx.oracle (Poses ctx before (.checkDataSig ending)) 1 1 before
      (final (checkDataSig ctx ending before)) := by
  refine (require_looks 3).followed fun _ _ => ?_
  refine pop_moves.followed fun key _ popped => ?_
  obtain ⟨_,first,rfl⟩ := pop_success_iff.mp popped
  refine pop_moves.followed fun message _ popped => ?_
  obtain ⟨_,second,rfl⟩ := pop_success_iff.mp popped
  refine pop_moves.followed fun sig _ popped => ?_
  obtain ⟨rest,third,rfl⟩ := pop_success_iff.mp popped
  have items : before.stack = key :: message :: sig :: rest :=
    first.trans (congrArg (key :: ·) (second.trans (congrArg (message :: ·) third)))
  refine checked_followed fun sigRight keyRight => ?_
  split
  next =>
    have refused : Moves ctx.oracle (Poses ctx before (.checkDataSig ending)) 1 0 (do
        let success ← pure false
        requireNullFail ctx success [sig]
        conclude ending .checkDataSigVerify success) :=
      (Looks.pure false).seq fun success => judge_moves ending _ success [sig]
    exact refused.mono (Nat.le_refl _) (Nat.zero_le _) _
  next filled =>
    have nonempty : sig ≠ [] := fun empty => filled (by rw [empty]; rfl)
    exact (ask_moves ⟨⟨nonempty,sigRight,keyRight⟩,.dataSignature items⟩).bind
      (fun success => judge_moves ending _ success [sig]) _

theorem matchKeys_moves {asks : Query → Prop} (code : Script) {sigs keys : List Bytes}
    (fine : ∀ sig ∈ sigs, ∀ key ∈ keys, Signature.checkTransaction ctx.flags sig = .ok () →
      Signature.checkKey ctx.flags key = .ok () → asks (.signature sig key code)) :
    Moves ctx.oracle asks 0 keys.length (matchKeys ctx code sigs keys) := by
  -- Every key is used up by one question, whether its signature stays or not.
  induction keys generalizing sigs with
  | nil => cases sigs <;> exact (Looks.pure _).moves
  | cons key keys ih =>
    cases sigs with
    | nil => exact (Looks.pure []).moves
    | cons sig sigs =>
      intro before
      refine checked_followed fun sigRight keyRight => ?_
      have first := fine sig List.mem_cons_self key List.mem_cons_self sigRight keyRight
      have later (left : List Bytes) (some : ∀ sig' ∈ left, sig' ∈ sig :: sigs) :
          Moves ctx.oracle asks 0 keys.length
            (if keys.length < left.length then pure left else matchKeys ctx code left keys) :=
        Moves.ite (Looks.pure left).moves (ih fun sig' member key' ofKeys =>
          fine sig' (some sig' member) key' (List.mem_cons_of_mem key ofKeys))
      refine ((ask_moves first).bind fun success => later _ ?_).mono (Nat.le_refl _)
        (Nat.le_of_eq (Nat.add_comm 1 _)) before
      cases success with
      | true => exact fun _ member => List.mem_cons_of_mem sig member
      | false => exact fun _ member => member

theorem schemes_of_sameScheme {sigs : List Bytes} (same : sameScheme sigs = true) :
    ∀ first ∈ sigs, ∀ second ∈ sigs, first ≠ [] → second ≠ [] →
      Signature.transactionScheme first = Signature.transactionScheme second := by
  have filled (sig : Bytes) (member : sig ∈ sigs) (nonempty : sig ≠ []) :
      Signature.transactionScheme sig ∈
        (sigs.filter (!·.isEmpty)).map Signature.transactionScheme :=
    List.mem_map_of_mem (List.mem_filter.mpr ⟨member,by simpa using nonempty⟩)
  unfold sameScheme at same
  intro first ofFirst second ofSecond firstFilled secondFilled
  have found := filled first ofFirst firstFilled
  have found' := filled second ofSecond secondFilled
  split at same
  next none =>
    rw [none] at found
    cases found
  next scheme schemes all =>
    rw [all] at found found'
    have each : ∀ other ∈ scheme :: schemes, other = scheme :=
      List.forall_mem_cons.mpr ⟨rfl,by simpa using same⟩
    rw [each _ found,each _ found']

def checkCounted (ctx : Context) (ending : Ending) (keyCount sigCount : Nat) : Machine Unit := do
  let _ ← pop
  let keys ← popMany keyCount
  let _ ← pop
  let sigs ← popMany sigCount
  let code ← ofExcept (scriptCode ctx (← get).codeStart sigs.reverse)
  ensure (sameScheme sigs) .mixedSchemeMultisig
  let left ← matchKeys ctx code sigs keys
  requireNullFail ctx left.isEmpty left
  let unused ← pop
  ensure (!ctx.flags.has .nullDummy || unused.isEmpty) .sigNullDummy
  conclude ending .checkMultiSigVerify left.isEmpty

theorem checkMultiSig_eq (ctx : Context) (ending : Ending) :
    checkMultiSig ctx ending =
      multisigCounts ctx >>= fun counts => checkCounted ctx ending counts.1 counts.2 := rfl

theorem multisigCounts_success {keyCount sigCount : Nat}
    (ok : multisigCounts ctx before = .ok (keyCount,sigCount) after) :
    (∃ top rest, before.stack = top :: rest ∧ Number.decode top = .ok keyCount) ∧
    (∃ item, before.stack.peek? (keyCount + 1) = some item ∧ Number.decode item = .ok sigCount) ∧
    before.opCount + keyCount ≤ maxOps ∧
    after = { before with opCount := before.opCount + keyCount } := by
  simp only [multisigCounts,bind_success_iff,require_success_iff,peekNumber_success_iff,
    ensure_success_iff,charge_success_iff,pure_success_iff,Prod.mk.injEq,Bool.and_eq_true,
    decide_eq_true_eq] at ok
  obtain ⟨_,_,⟨_,rfl⟩,n,_,⟨top,found,read,rfl⟩,_,_,⟨⟨positive,_⟩,rfl⟩,_,_,⟨room,rfl⟩,_,_,⟨_,rfl⟩,
    m,_,⟨item,found',read',rfl⟩,_,_,⟨⟨positive',_⟩,rfl⟩,_,_,⟨_,rfl⟩,⟨rfl,rfl⟩,rfl⟩ := ok
  obtain ⟨rest,items⟩ := peek?_zero found
  refine ⟨⟨top,rest,items,?_⟩,⟨item,found',?_⟩,room,rfl⟩
  · rw [Int.toNat_of_nonneg positive]
    exact (Number.decode_of_operand read).2
  · rw [Int.toNat_of_nonneg positive']
    exact (Number.decode_of_operand read').2

theorem multisigCounts_final (ctx : Context) (before : State) :
    ∃ n, final (multisigCounts ctx before) = { before with opCount := before.opCount + n } := by
  -- All but one of its steps only look; nothing is charged if it fails before that one.
  have looked {α : Type} {first : Machine α} {next : α → Machine (Nat × Nat)} (looks : Looks first)
      (tail : ∀ value, ∃ n, final (next value before) = { before with opCount := before.opCount + n }) :
      ∃ n, final ((first >>= next) before) = { before with opCount := before.opCount + n } :=
    looks.bind_motive (motive := fun last => ∃ n, last = { before with opCount := before.opCount + n })
      ⟨0,rfl⟩ fun value _ => tail value
  refine looked (require_looks 1) fun _ => looked (peekNumber_looks ctx 0 _) fun keyCount => ?_
  refine looked (ensure_looks _ _) fun _ => ⟨keyCount.toNat,?_⟩
  refine (Looks.final_bind fun _ => ?_).trans (charge_final _ before)
  exact (require_looks _).bind fun _ => (peekNumber_looks ctx _ _).bind fun _ =>
    (ensure_looks _ _).bind fun _ => (require_looks _).bind fun _ => Looks.pure _

theorem checkCounted_moved (ctx : Context) (ending : Ending) (before : State) {keyCount sigCount : Nat}
    (keysCounted : ∃ top rest, before.stack = top :: rest ∧ Number.decode top = .ok keyCount)
    (sigsCounted : ∃ item, before.stack.peek? (keyCount + 1) = some item ∧
      Number.decode item = .ok sigCount) :
    Moved ctx.oracle (Poses ctx before (.checkMultiSig ending)) 1 keyCount before
      (final (checkCounted ctx ending keyCount sigCount before)) := by
  refine pop_moves.followed fun top _ popped => ?_
  obtain ⟨_,first,rfl⟩ := pop_success_iff.mp popped
  refine (popMany_moves keyCount).followed fun keys _ popped => ?_
  obtain ⟨_,second,rfl,rfl⟩ := popMany_success_iff.mp popped
  refine pop_moves.followed fun item _ popped => ?_
  obtain ⟨_,third,rfl⟩ := pop_success_iff.mp popped
  refine (popMany_moves sigCount).followed fun sigs _ popped => ?_
  obtain ⟨rest,fourth,rfl,rfl⟩ := popMany_success_iff.mp popped
  have items : before.stack = top :: (keys ++ item :: (sigs ++ rest)) := by
    rw [first]
    exact congrArg (top :: ·) (second.trans
      (congrArg (keys ++ ·) (third.trans (congrArg (item :: ·) fourth))))
  have keysRead : Number.decode top = .ok keys.length := by
    obtain ⟨top',_,items',read⟩ := keysCounted
    obtain ⟨rfl,_⟩ := List.cons.inj (items'.symm.trans items)
    exact read
  have sigsRead : Number.decode item = .ok sigs.length := by
    obtain ⟨item',found,read⟩ := sigsCounted
    rw [Stack.peek?,items,List.getElem?_cons_succ,List.getElem?_append_right (Nat.le_refl _),
      Nat.sub_self] at found
    cases found
    exact read
  refine Looks.get.followed fun state looked => ?_
  cases looked
  refine (ofExcept_looks _).followed fun code done => ?_
  have coded := (ofExcept_success_iff.mp done).1
  refine (ensure_looks _ _).followed fun _ passed => ?_
  have schemes := schemes_of_sameScheme (ensure_success_iff.mp passed).1
  have matched : Moves ctx.oracle (Poses ctx before (.checkMultiSig ending)) 0 keys.length
      (matchKeys ctx code sigs keys) :=
    matchKeys_moves code fun sig ofSigs key ofKeys sigRight keyRight =>
      ⟨⟨sigRight,keyRight⟩,.oneOfSeveral items keysRead sigsRead coded schemes ofSigs ofKeys⟩
  have judged (left : List Bytes) : Moves ctx.oracle (Poses ctx before (.checkMultiSig ending)) 1 0
      (do
        requireNullFail ctx left.isEmpty left
        let unused ← pop
        ensure (!ctx.flags.has .nullDummy || unused.isEmpty) .sigNullDummy
        conclude ending .checkMultiSigVerify left.isEmpty) :=
    (ensure_looks _ _).seq fun _ => pop_moves.seq fun _ => (ensure_looks _ _).seq fun _ =>
      conclude_moves ending _ _
  exact matched.bind judged _

end Machine

end ColorScript
