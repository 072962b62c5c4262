import ColorScript.Proofs.EnoughItems
import ColorScript.Proofs.Faultless.Operation
import ColorScript.Proofs.Questions

/-! Operations check that the stack has enough items before they do anything. With fewer items than it
needs, an operation fails and leaves everything as it was. With enough of them it does not miss an item,
unless it looks for one at a depth that is no depth of the stack. -/
namespace ColorScript

/-- What an operation needs on the stack. -/
inductive Need where
  | items (n : Nat)
  /-- A condition, where branches are executed. -/
  | condition
  /-- A lock time, where it is checked; likewise for sequences. -/
  | lockTime
  | sequence
  /-- As much as the stack itself says. -/
  | counted
deriving DecidableEq

/-- The number of items, unless the stack says it. -/
def Need.arity? (ctx : Context) (before : State) : Need → Option Nat
  | .items n => some n
  | .condition => some (if before.executing then 1 else 0)
  | .lockTime => some (if ctx.flags.has .checkLockTimeVerify then 1 else 0)
  | .sequence => some (if ctx.flags.has .checkSequenceVerify then 1 else 0)
  | .counted => none

def Opcode.need : Opcode → Need
  | 0x63 | 0x64 => .condition
  | 0xb1 => .lockTime
  | 0xb2 => .sequence
  | 0x69 | 0x6b | 0x73 | 0x75 | 0x76 | 0x82 | 0x8b | 0x8c | 0x8f | 0x90 | 0x91 | 0x92 | 0xa6 | 0xa7
  | 0xa8 | 0xa9 | 0xaa | 0xbc => .items 1
  | 0x6d | 0x6e | 0x77 | 0x78 | 0x79 | 0x7a | 0x7c | 0x7d | 0x87 | 0x88 | 0x93 | 0x94 | 0x9a | 0x9b
  | 0x9c | 0x9d | 0x9e | 0x9f | 0xa0 | 0xa1 | 0xa2 | 0xa3 | 0xa4 | 0xac | 0xad => .items 2
  | 0x6f | 0x7b | 0xa5 | 0xba | 0xbb => .items 3
  | 0x70 | 0x72 => .items 4
  | 0x71 => .items 6
  | 0xae | 0xaf => .counted
  | _ => .items 0

namespace Operation

def need : Operation → Need
  | .pushInt _ | .nothing | .reservedNothing | .otherwise | .endBranch | .giveUp | .fromAlt
  | .depth | .codeSeparator | .invalid => .items 0
  | .checkLockTime => .lockTime
  | .checkSequence => .sequence
  | .branch _ => .condition
  | .verify | .toAlt | .dupIfTrue | .size | .unary _ | .digest _ | .setColor => .items 1
  | .shuffle move => .items move.arity
  | .fetch _ | .equal _ | .binary _ | .numEqualVerify | .checkSig _ => .items 2
  | .within | .checkDataSig _ => .items 3
  | .checkMultiSig _ => .counted

private theorem need_ofOpcode (opcode : Opcode) : (ofOpcode opcode).need = opcode.need := by
  have each : ∀ opcode, (ofOpcode opcode).need = opcode.need := forall_byte (by decide +kernel)
  exact each opcode

private theorem exists_fetch_iff {opcode : Opcode} :
    (∃ removed, ofOpcode opcode = .fetch removed) ↔ opcode = 0x79 ∨ opcode = 0x7a := by
  constructor
  · rintro ⟨removed,fetches⟩
    have each : ∀ opcode, (match ofOpcode opcode with
        | .fetch _ => opcode = 0x79 || opcode = 0x7a
        | _ => true) = true := forall_byte (by decide +kernel)
    have found := each opcode
    rw [fetches] at found
    simpa using found
  · rintro (rfl | rfl)
    · exact ⟨false,rfl⟩
    · exact ⟨true,rfl⟩

end Operation

namespace Machine

section Short

variable {ctx : Context} {before : State} {operation : Operation} {arity : Nat}

theorem require_short {n : Nat} (short : before.stack.length < n) :
    require n before = .error .invalidStackOperation before := by
  rw [require,get_bind_apply,ensure,decide_eq_false (Nat.not_le.mpr short)]
  rfl

private theorem peek_missing {depth : Nat} (missing : before.stack.peek? depth = none) :
    peek depth before = .error .invalidStackOperation before := by
  rw [peek,get_bind_apply,missing]
  rfl

private theorem peek_nil {depth : Nat} (empty : before.stack = []) :
    peek depth before = .error .invalidStackOperation before := by
  refine peek_missing ?_
  rw [empty]
  rfl

private theorem peekNumber_nil {depth size : Nat} (empty : before.stack = []) :
    peekNumber ctx depth size before = .error .invalidStackOperation before :=
  bind_of_failure (peek_nil empty) _

private theorem shuffle_short {move : Shuffle} (short : before.stack.length < move.arity) :
    shuffle move before = .error .invalidStackOperation before := by
  rw [shuffle,get_bind_apply,Shuffle.rearrange?_eq_none_iff.mpr short]
  rfl

private theorem checkLockTime_nil (set : ctx.flags.has .checkLockTimeVerify = true) (empty : before.stack = []) :
    checkLockTime ctx before = .error .invalidStackOperation before := by
  rw [checkLockTime,if_pos set,bind_of_failure (peekNumber_nil empty)]

private theorem checkSequence_nil (set : ctx.flags.has .checkSequenceVerify = true) (empty : before.stack = []) :
    checkSequence ctx before = .error .invalidStackOperation before := by
  rw [checkSequence,if_pos set,bind_of_failure (peekNumber_nil empty)]

-- Nothing is done before it is known that there are enough items.
private theorem execute_short (place : Nat)
    (needs : operation.need.arity? ctx before = some arity) (short : before.stack.length < arity) :
    execute ctx place operation before = .error .invalidStackOperation before := by
  have empty (one : arity = 1) : before.stack = [] :=
    List.length_eq_zero_iff.mp (Nat.lt_one_iff.mp (one ▸ short))
  have conditional {condition : Bool} (needs : some (if condition then 1 else 0) = some arity) :
      condition = true ∧ before.stack = [] := by
    cases condition with
    | false =>
      cases needs
      cases short
    | true => exact ⟨rfl,empty (Option.some.inj needs).symm⟩
  cases operation with
  | pushInt | nothing | reservedNothing | otherwise | endBranch | giveUp | fromAlt | depth
  | codeSeparator | invalid =>
    cases needs
    cases short
  | checkLockTime =>
    obtain ⟨set,none⟩ := conditional needs
    exact checkLockTime_nil set none
  | checkSequence =>
    obtain ⟨set,none⟩ := conditional needs
    exact checkSequence_nil set none
  | branch negated =>
    obtain ⟨executing,none⟩ := conditional needs
    exact branch_empty executing none
  | verify | dupIfTrue | size =>
    cases needs
    exact bind_of_failure (peek_nil (empty rfl)) _
  | toAlt | digest =>
    cases needs
    exact bind_of_failure (pop_nil (empty rfl)) _
  | unary =>
    cases needs
    exact bind_of_failure (bind_of_failure (pop_nil (empty rfl)) _) _
  | shuffle move =>
    cases needs
    exact shuffle_short short
  | fetch | equal | checkSig | within | checkDataSig | setColor =>
    cases needs
    exact bind_of_failure (require_short short) _
  | binary | numEqualVerify =>
    cases needs
    exact bind_of_failure (bind_of_failure (require_short short) _) _
  | checkMultiSig => cases needs

end Short

section Fetch

variable {ctx : Context} {before : State} {top : Bytes} {rest : Stack} {n : Int}

private theorem fetch_unread (removed : Bool) {fault : CodecError} (items : before.stack = top :: rest)
    (enough : 2 ≤ before.stack.length)
    (unread : Number.operand Number.operandSize (ctx.flags.has .minimalData) top = .error fault) :
    fetch ctx removed before = .error .unknownError { before with stack := rest } := by
  rw [fetch,bind_of_success (require_of_le enough),bind_of_failure (popNumber_unread items unread)]

theorem fetch_outside (removed : Bool) (items : before.stack = top :: rest)
    (enough : 2 ≤ before.stack.length)
    (read : Number.operand Number.operandSize (ctx.flags.has .minimalData) top = .ok n)
    (outside : n < 0 ∨ (rest.length : Int) ≤ n) :
    fetch ctx removed before = .error .invalidStackOperation { before with stack := rest } := by
  rw [fetch,bind_of_success (require_of_le enough),bind_of_success (popNumber_read items read)]
  by_cases positive : 0 ≤ n
  · have missing : rest[n.toNat]? = none := List.getElem?_eq_none (by omega)
    rw [decide_eq_true positive]
    cases removed with
    | false =>
      have missed : peek n.toNat { before with stack := rest } =
          .error .invalidStackOperation { before with stack := rest } := peek_missing missing
      exact bind_of_failure missed _
    | true =>
      change (orShort (Stack.remove? rest n.toNat) >>= fun _ => _) _ = _
      rw [Stack.remove?,missing]
      rfl
  · rw [decide_eq_false positive]
    rfl

theorem fetch_found (removed : Bool) {item : Bytes} (items : before.stack = top :: rest)
    (enough : 2 ≤ before.stack.length)
    (read : Number.operand Number.operandSize (ctx.flags.has .minimalData) top = .ok n)
    (positive : 0 ≤ n) (found : rest[n.toNat]? = some item) :
    fetch ctx removed before =
      .ok () { before with stack := item :: if removed then rest.eraseIdx n.toNat else rest } := by
  rw [fetch,bind_of_success (require_of_le enough),bind_of_success (popNumber_read items read),
    decide_eq_true positive]
  cases removed with
  | false =>
    have peeked : peek n.toNat { before with stack := rest } = .ok item { before with stack := rest } :=
      peek_success_iff.mpr ⟨found,rfl⟩
    exact bind_of_success peeked _
  | true =>
    change (orShort (Stack.remove? rest n.toNat) >>= fun _ => _) _ = _
    rw [Stack.remove?,found]
    rfl

private theorem fetch_inside (removed : Bool) (items : before.stack = top :: rest)
    (enough : 2 ≤ before.stack.length)
    (read : Number.operand Number.operandSize (ctx.flags.has .minimalData) top = .ok n)
    (positive : 0 ≤ n) (inside : n < rest.length) :
    ∃ after, fetch ctx removed before = .ok () after :=
  ⟨_,fetch_found removed items enough read positive (List.getElem?_eq_getElem (by omega))⟩

/-- A depth on top of the stack at which there is no item below it. -/
def MissesItem (minimal : Bool) (stack : Stack) : Prop :=
  ∃ top rest n, stack = top :: rest ∧ Number.operand Number.operandSize minimal top = .ok n ∧
    (n < 0 ∨ (rest.length : Int) ≤ n)

private theorem fetch_misses_iff (removed : Bool) (enough : 2 ≤ before.stack.length) :
    (∃ after, fetch ctx removed before = .error .invalidStackOperation after) ↔
      MissesItem (ctx.flags.has .minimalData) before.stack := by
  constructor
  · rintro ⟨after,failed⟩
    obtain ⟨top,rest,items⟩ := List.exists_cons_of_length_pos (Nat.lt_of_lt_of_le Nat.zero_lt_two enough)
    cases read : Number.operand Number.operandSize (ctx.flags.has .minimalData) top with
    | error fault =>
      rw [fetch_unread removed items enough read] at failed
      cases failed
    | ok n =>
      refine ⟨top,rest,n,items,read,Decidable.byContradiction fun inside => ?_⟩
      obtain ⟨last,found⟩ := fetch_inside removed items enough read (by omega) (by omega)
      rw [found] at failed
      cases failed
  · rintro ⟨top,rest,n,items,read,outside⟩
    exact ⟨_,fetch_outside removed items enough read outside⟩

end Fetch

/-- The operations with enough items, except for those that look for one at a depth. -/
theorem execute_sated {ctx : Context} {operation : Operation} {before : State} (place : Nat)
    (direct : ∀ removed, operation ≠ .fetch removed) (single : ∀ ending, operation ≠ .checkMultiSig ending)
    (enough : ∀ arity, operation.need.arity? ctx before = some arity → arity ≤ before.stack.length) :
    Leaves 0 (execute ctx place operation before) := by
  cases operation with
  | pushInt | nothing | depth | codeSeparator => exact Nat.zero_le _
  | giveUp | invalid => nofun
  | reservedNothing => exact ensure_serves (by nofun) before (enough 0 rfl)
  | checkLockTime => exact checkLockTime_serves before (enough _ rfl)
  | checkSequence => exact checkSequence_serves before (enough _ rfl)
  | branch negated => exact branch_sated negated (enough _ rfl)
  | otherwise => exact otherwise_serves before (enough 0 rfl)
  | endBranch => exact endBranch_serves before (enough 0 rfl)
  | verify => exact verify_serves before (enough 1 rfl)
  | toAlt => exact toAlt_serves before (enough 1 rfl)
  | fromAlt => exact fromAlt_serves before (enough 0 rfl)
  | shuffle move => exact shuffle_serves move before (enough move.arity rfl)
  | dupIfTrue => exact dupIfTrue_serves before (enough 1 rfl)
  | fetch removed => exact absurd rfl (direct removed)
  | size =>
    have sized : Serves 1 0 (do push (Number.encode (← peek 0).length)) :=
      (peek_serves Nat.zero_lt_one).bind fun _ => (push_serves _).leave (Nat.zero_le 2)
    exact sized before (enough 1 rfl)
  | equal ending => exact equal_serves ending before (enough 2 rfl)
  | unary function => exact unary_serves function before (enough 1 rfl)
  | binary function =>
    have computed : Serves 2 0 (binary ctx function) :=
      popTwo_serves.bind fun _ => (push_serves _).leave (Nat.zero_le 1)
    exact computed before (enough 2 rfl)
  | numEqualVerify =>
    have compared : Serves 2 0 (numEqualVerify ctx) :=
      popTwo_serves.bind fun _ => ensure_serves (by nofun)
    exact compared before (enough 2 rfl)
  | within => exact within_serves before (enough 3 rfl)
  | digest function => exact digest_serves function before (enough 1 rfl)
  | checkSig ending => exact checkSig_serves ending before (enough 2 rfl)
  | checkDataSig ending => exact checkDataSig_serves ending before (enough 3 rfl)
  | checkMultiSig ending => exact absurd rfl (single ending)
  | setColor => exact setColor_serves before (enough 1 rfl)

/-- An opcode that needs a fixed number of items fails without them, before it has done anything. With
them it misses an item only if it looks for one at a depth and there is none. The opcodes that move items find
them by their places from the bottom as well. -/
theorem execute_arity {opcode : Opcode} {arity : Nat} (ctx : Context) (place : Nat) (before : State)
    (needs : opcode.need.arity? ctx before = some arity) :
    (before.stack.length < arity →
      execute ctx place (Operation.ofOpcode opcode) before = .error .invalidStackOperation before) ∧
    (arity ≤ before.stack.length →
      ((∃ after, execute ctx place (Operation.ofOpcode opcode) before =
          .error .invalidStackOperation after) ↔
        (opcode = 0x79 ∨ opcode = 0x7a) ∧ MissesItem (ctx.flags.has .minimalData) before.stack)) ∧
    (∀ move, GuardedMachine.shuffle move before = .ok (shuffle move before)) ∧
    ∀ removed, GuardedMachine.fetch ctx removed before = .ok (fetch ctx removed before) := by
  rw [← Operation.need_ofOpcode] at needs
  refine ⟨execute_short place needs,fun enough => ?_,fun move => GuardedMachine.shuffle_agrees move,
    fun removed => GuardedMachine.fetch_agrees ctx removed⟩
  by_cases looks : opcode = 0x79 ∨ opcode = 0x7a
  · obtain ⟨removed,fetches⟩ := Operation.exists_fetch_iff.mpr looks
    rw [fetches] at needs ⊢
    cases needs
    rw [and_iff_right looks]
    exact fetch_misses_iff removed enough
  · refine iff_of_false ?_ fun missed => looks missed.1
    have direct : ∀ removed, Operation.ofOpcode opcode ≠ .fetch removed :=
      fun removed fetches => looks (Operation.exists_fetch_iff.mp ⟨removed,fetches⟩)
    have single : ∀ ending, Operation.ofOpcode opcode ≠ .checkMultiSig ending := by
      intro ending counted
      rw [counted] at needs
      cases needs
    have sated : Leaves 0 (execute ctx place (Operation.ofOpcode opcode) before) :=
      execute_sated place direct single fun _ same => Option.some.inj (needs.symm.trans same) ▸ enough
    rintro ⟨after,failed⟩
    rw [failed] at sated
    exact sated rfl

/-- A double rotation of five items, and a move from a depth that is the number of the items left. -/
theorem execute_arity_rotTwo :
    execute ⟨⟨Flags.empty,Oracle.never⟩,[],false⟩ 0 (Operation.ofOpcode 0x71)
        { stack := [[1],[2],[3],[4],[5]] } =
      .error .invalidStackOperation { stack := [[1],[2],[3],[4],[5]] } ∧
    ∃ after, execute ⟨⟨Flags.empty,Oracle.never⟩,[],false⟩ 0 (Operation.ofOpcode 0x7a)
        { stack := [[2],[7],[8]] } = .error .invalidStackOperation after := by
  have rotated := @execute_arity 0x71 6 ⟨⟨Flags.empty,Oracle.never⟩,[],false⟩ 0
    { stack := [[1],[2],[3],[4],[5]] } rfl
  have moved := @execute_arity 0x7a 2 ⟨⟨Flags.empty,Oracle.never⟩,[],false⟩ 0
    { stack := [[2],[7],[8]] } rfl
  exact ⟨rotated.1 (by decide),
    (moved.2.1 (by decide)).mpr ⟨.inr rfl,[2],[[7],[8]],2,rfl,rfl,.inr (by decide)⟩⟩

end Machine

end ColorScript
