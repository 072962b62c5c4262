import ColorScript.Proofs.Faultless.Operation
import ColorScript.Proofs.NumberCodec

/-! The operations on numbers compute exactly. Each opcode has a formula over the integers. Its operands
are read by their values, in whatever form they are, and the result is put on the stack in its shortest
form. There is always room for it in a machine word. -/
namespace ColorScript

/-- A function of one, two or three numbers. -/
inductive Formula where
  | one (apply : Int → Int)
  | two (apply : Int → Int → Int)
  | three (apply : Int → Int → Int → Int)

namespace Formula

def arity : Formula → Nat
  | .one _ => 1
  | .two _ => 2
  | .three _ => 3

def eval : Formula → List Int → Int
  | .one apply, [n] => apply n
  | .two apply, [a, b] => apply a b
  | .three apply, [a, b, c] => apply a b c
  | _, _ => 0

end Formula

/-- The formulas of the opcodes for numbers, over operands in the order in which they were pushed. -/
def Opcode.formula? : Opcode → Option Formula
  | 0x8b => some (.one fun n => n + 1)
  | 0x8c => some (.one fun n => n - 1)
  | 0x8f => some (.one fun n => -n)
  | 0x90 => some (.one fun n => if 0 ≤ n then n else -n)
  | 0x91 => some (.one fun n => if n = 0 then 1 else 0)
  | 0x92 => some (.one fun n => if n ≠ 0 then 1 else 0)
  | 0x93 => some (.two fun a b => a + b)
  | 0x94 => some (.two fun a b => a - b)
  | 0x9a => some (.two fun a b => if a ≠ 0 ∧ b ≠ 0 then 1 else 0)
  | 0x9b => some (.two fun a b => if a ≠ 0 ∨ b ≠ 0 then 1 else 0)
  | 0x9c => some (.two fun a b => if a = b then 1 else 0)
  | 0x9d => some (.two fun a b => if a = b then 1 else 0)
  | 0x9e => some (.two fun a b => if a ≠ b then 1 else 0)
  | 0x9f => some (.two fun a b => if a < b then 1 else 0)
  | 0xa0 => some (.two fun a b => if b < a then 1 else 0)
  | 0xa1 => some (.two fun a b => if a ≤ b then 1 else 0)
  | 0xa2 => some (.two fun a b => if b ≤ a then 1 else 0)
  | 0xa3 => some (.two fun a b => min a b)
  | 0xa4 => some (.two fun a b => max a b)
  | 0xa5 => some (.three fun n low high => if low ≤ n ∧ n < high then 1 else 0)
  | _ => none

private theorem ite_eq_truthNumber {condition : Prop} [Decidable condition] {truth : Bool}
    (holds : condition ↔ truth = true) : (if condition then 1 else 0 : Int) = truthNumber truth := by
  simp only [truthNumber,holds]

private theorem UnaryFunction.natAbs_apply_le (function : UnaryFunction) (n : Int) :
    (function.apply n).natAbs ≤ n.natAbs + 1 := by
  cases function with
  | isZero | isNonZero =>
    simp only [apply,truthNumber]
    split <;> simp
  | increment | decrement | negate | absolute =>
    simp only [apply]
    omega

private theorem BinaryFunction.natAbs_apply_le (function : BinaryFunction) (a b : Int) :
    (function.apply a b).natAbs ≤ a.natAbs + b.natAbs + 1 := by
  cases function with
  | add | subtract | minimum | maximum =>
    simp only [apply]
    omega
  | both | either | equal | unequal | less | greater | lessOrEqual | greaterOrEqual =>
    simp only [apply,truthNumber]
    split <;> simp

inductive Operation.Computes : Operation → Formula → Prop
  | unary (function : UnaryFunction) {apply : Int → Int}
      (same : ∀ n, apply n = function.apply n) : Computes (.unary function) (.one apply)
  | binary (function : BinaryFunction) {apply : Int → Int → Int}
      (same : ∀ a b, apply a b = function.apply a b) : Computes (.binary function) (.two apply)
  | numEqualVerify {apply : Int → Int → Int}
      (same : ∀ a b, apply a b = truthNumber (a = b)) : Computes .numEqualVerify (.two apply)
  | within {apply : Int → Int → Int → Int}
      (same : ∀ n low high, apply n low high = truthNumber (low ≤ n && n < high)) :
      Computes .within (.three apply)

namespace Operation.Computes

variable {operation : Operation} {formula : Formula} {numbers : List Int}

private theorem of_formula? {opcode : Opcode} (numeric : opcode.formula? = some formula) :
    (ofOpcode opcode).Computes formula := by
  unfold Opcode.formula? at numeric
  split at numeric
  all_goals cases numeric
  · exact unary .increment fun _ => rfl
  · exact unary .decrement fun _ => rfl
  · exact unary .negate fun _ => rfl
  · refine unary .absolute fun n => ?_
    simp only [UnaryFunction.apply]
    omega
  · exact unary .isZero fun n => ite_eq_truthNumber decide_eq_true_iff.symm
  · exact unary .isNonZero fun n => ite_eq_truthNumber decide_eq_true_iff.symm
  · exact binary .add fun _ _ => rfl
  · exact binary .subtract fun _ _ => rfl
  · exact binary .both fun a b => ite_eq_truthNumber (by simp)
  · exact binary .either fun a b => ite_eq_truthNumber (by simp [or_iff_not_imp_left])
  · exact binary .equal fun a b => ite_eq_truthNumber decide_eq_true_iff.symm
  · exact numEqualVerify fun a b => ite_eq_truthNumber decide_eq_true_iff.symm
  · exact binary .unequal fun a b => ite_eq_truthNumber decide_eq_true_iff.symm
  · exact binary .less fun a b => ite_eq_truthNumber decide_eq_true_iff.symm
  · exact binary .greater fun a b => ite_eq_truthNumber decide_eq_true_iff.symm
  · exact binary .lessOrEqual fun a b => ite_eq_truthNumber decide_eq_true_iff.symm
  · exact binary .greaterOrEqual fun a b => ite_eq_truthNumber decide_eq_true_iff.symm
  · exact binary .minimum fun _ _ => rfl
  · exact binary .maximum fun _ _ => rfl
  · exact within fun n low high => ite_eq_truthNumber (by simp)

-- Sums of operands need a fifth byte at most.
private theorem natAbs_eval_lt (computes : operation.Computes formula)
    (small : ∀ n ∈ numbers, n.natAbs < 2 ^ 31) : (formula.eval numbers).natAbs < 128 * 256 ^ 4 := by
  unfold Formula.eval
  split
  next apply n =>
    cases computes with
    | unary function same =>
      have bound := small n (by simp)
      have grown := function.natAbs_apply_le n
      rw [same]
      omega
  next apply a b =>
    have first := small a (by simp)
    have second := small b (by simp)
    cases computes with
    | binary function same =>
      have grown := function.natAbs_apply_le a b
      rw [same]
      omega
    | numEqualVerify same =>
      have grown := BinaryFunction.equal.natAbs_apply_le a b
      rw [same]
      change (truthNumber (a = b)).natAbs ≤ _ at grown
      omega
  next apply n low high =>
    cases computes with
    | within same =>
      rw [same,truthNumber]
      split <;> decide
  next => decide

end Operation.Computes

namespace Number

/-- The operands that an operation reads. In their shortest form they have to be only if that is asked
for. -/
def IsOperand (minimal : Bool) (item : Bytes) : Prop :=
  item.length ≤ 4 ∧ (minimal = true → Shortest item)

variable {minimal : Bool} {item : Bytes}

theorem natAbs_value_lt (short : item.length ≤ 4) : (value item).natAbs < 2 ^ 31 := by
  have bound := @toNat_splitSign_lt item 3 short
  rw [natAbs_value]
  omega

theorem operand_of_isOperand (fine : IsOperand minimal item) :
    operand operandSize minimal item = .ok (value item) := by
  have read : decode item = .ok (value item) := by
    rw [decode_eq_value,if_pos (Nat.lt_trans (natAbs_value_lt fine.1) (by decide))]
  have allowed : ¬ (minimal && !isMinimal item) = true := by
    intro refused
    obtain ⟨asked,longer⟩ := Bool.and_eq_true_iff.mp refused
    rw [(isMinimal_iff item).mpr (fine.2 asked)] at longer
    cases longer
  have short : ¬ operandSize < item.length := Nat.not_lt.mpr fine.1
  rw [operand,if_neg short,if_neg allowed,read]

private theorem operand_of_not_isOperand (refused : ¬ IsOperand minimal item) :
    ∃ error, operand operandSize minimal item = .error error := by
  rw [operand]
  split
  next => exact ⟨_,rfl⟩
  next short =>
    have longer : (minimal && !isMinimal item) = true := by
      by_contra allowed
      refine refused ⟨Nat.not_lt.mp short,fun asked => (isMinimal_iff item).mp ?_⟩
      simpa [asked] using allowed
    rw [if_pos longer]
    exact ⟨_,rfl⟩

theorem isOperand_encode {n : Int} (bound : n.natAbs < 2 ^ 31) (minimal : Bool) :
    IsOperand minimal (encode n) :=
  ⟨(length_encode_le_iff n 3).mpr bound,fun _ => shortest_encode n⟩

theorem encode_truthNumber (truth : Bool) : encode (truthNumber truth) = ofBool truth := by
  cases truth <;> decide +kernel

end Number

namespace Machine

variable {ctx : Context} {before : State} {operation : Operation} {formula : Formula}

def popNumbers (ctx : Context) : (n : Nat) → Machine (List Int)
  | 0 => pure []
  | n + 1 => do
    let number ← popNumber ctx
    let others ← popNumbers ctx n
    return number :: others

theorem popNumber_of_operand {item : Bytes} {rest : Stack} (top : before.stack = item :: rest)
    (fine : Number.IsOperand (ctx.flags.has .minimalData) item) :
    popNumber ctx before = .ok (Number.value item) { before with stack := rest } :=
  popNumber_read top (Number.operand_of_isOperand fine)

private theorem popNumber_of_refused {item : Bytes} {rest : Stack} (top : before.stack = item :: rest)
    (refused : ¬ Number.IsOperand (ctx.flags.has .minimalData) item) :
    popNumber ctx before = .error .unknownError { before with stack := rest } := by
  obtain ⟨error,unread⟩ := Number.operand_of_not_isOperand refused
  exact popNumber_unread top unread

private theorem popNumbers_of_operands {operands rest : Stack} (items : before.stack = operands ++ rest)
    (fine : ∀ item ∈ operands, Number.IsOperand (ctx.flags.has .minimalData) item) :
    popNumbers ctx operands.length before =
      .ok (operands.map Number.value) { before with stack := rest } := by
  induction operands generalizing before with
  | nil =>
    rw [List.nil_append] at items
    rw [← items]
    rfl
  | cons item operands ih =>
    obtain ⟨first,others⟩ := List.forall_mem_cons.mp fine
    have read : popNumber ctx before = .ok (Number.value item) { before with stack := operands ++ rest } :=
      popNumber_of_operand items first
    rw [List.length_cons,popNumbers,bind_of_success read,bind_of_success (ih rfl others)]
    rfl

private theorem popNumbers_of_refused {operands rest : Stack} (items : before.stack = operands ++ rest)
    (refused : ∃ item ∈ operands, ¬ Number.IsOperand (ctx.flags.has .minimalData) item) :
    ∃ after, popNumbers ctx operands.length before = .error .unknownError after := by
  induction operands generalizing before with
  | nil =>
    obtain ⟨item,member,_⟩ := refused
    cases member
  | cons item operands ih =>
    rw [List.cons_append] at items
    rw [List.length_cons,popNumbers]
    by_cases fine : Number.IsOperand (ctx.flags.has .minimalData) item
    · have others : ∃ other ∈ operands, ¬ Number.IsOperand (ctx.flags.has .minimalData) other := by
        obtain ⟨other,member,refused⟩ := refused
        obtain rfl | member := List.mem_cons.mp member
        · exact absurd fine refused
        · exact ⟨other,member,refused⟩
      obtain ⟨after,failed⟩ := @ih { before with stack := operands ++ rest } rfl others
      refine ⟨after,?_⟩
      rw [bind_of_success (popNumber_of_operand items fine),bind_of_failure failed]
    · exact ⟨_,bind_of_failure (popNumber_of_refused items fine) _⟩

def settle (operation : Operation) (result : Int) : Machine Unit :=
  if operation = .numEqualVerify then ensure (result ≠ 0) .numEqualVerify
  else push (Number.encode result)

private theorem settle_demand (truth : Bool) :
    settle .numEqualVerify (truthNumber truth) = ensure truth .numEqualVerify := by
  cases truth <;> rfl

private theorem settle_within (truth : Bool) :
    settle .within (truthNumber truth) = push (Number.ofBool truth) := by
  rw [settle,Number.encode_truthNumber]
  rfl

private theorem popTwo_bind {next : Int × Int → Machine Unit} {next' : List Int → Machine Unit}
    (enough : 2 ≤ before.stack.length) (same : ∀ a b, next (a,b) = next' [b,a]) :
    (popTwo ctx >>= next) before = (popNumbers ctx 2 >>= next') before := by
  simp only [popTwo,bind_assoc,bind_of_success (require_of_le enough),popNumbers,pure_bind,same]

/-- The operations read all of their operands, and then settle. -/
theorem execute_numeric (computes : operation.Computes formula) (place : Nat)
    (enough : formula.arity ≤ before.stack.length) :
    execute ctx place operation before =
      (popNumbers ctx formula.arity >>= fun numbers =>
        settle operation (formula.eval numbers.reverse)) before := by
  cases computes with
  | unary function same =>
    simp only [execute,unary,popNumbers,Formula.arity,bind_assoc,pure_bind,List.reverse_singleton,
      Formula.eval,same]
    rfl
  | binary function same =>
    refine popTwo_bind enough fun a b => ?_
    change push (Number.encode (function.apply a b)) = push (Number.encode _)
    rw [← same]
    rfl
  | numEqualVerify same =>
    refine popTwo_bind enough fun a b => ?_
    change ensure (a = b) .numEqualVerify = settle .numEqualVerify (Formula.eval _ [a,b])
    rw [Formula.eval,same,settle_demand]
  | within same =>
    have three : require 3 before = .ok () before := require_of_le enough
    simp only [execute,within,bind_assoc,bind_of_success three,popNumbers,
      Formula.arity,pure_bind,List.reverse_cons,List.reverse_nil,List.nil_append,List.cons_append,
      Formula.eval,same,settle_within]

private theorem execute_numeric_agrees (computes : operation.Computes formula) (place : Nat) :
    GuardedMachine.execute ctx place operation before = .ok (execute ctx place operation before) := by
  cases computes with
  | unary function same => exact GuardedMachine.unary_agrees ctx function
  | binary function same => exact GuardedMachine.binary_agrees ctx function
  | numEqualVerify same => exact GuardedMachine.numEqualVerify_agrees
  | within same => exact GuardedMachine.within_agrees

/-- How an operation ends that computes a number from the items `operands`, the top one first, above the
items `rest`. -/
structure Computed (ctx : Context) (before : State) (operation : Operation) (operands rest : Stack)
    (result : Int) (ended : EStateM.Result ScriptError State Unit) : Prop where
  /-- An operand that is too long, or not in its shortest form where that is asked for, is refused. -/
  refuses : (∃ item ∈ operands, 4 < item.length ∨
      ctx.flags.has .minimalData = true ∧ ¬ Number.Shortest item) →
    ∃ after, ended = .error .unknownError after
  /-- The number takes the place of the operands. -/
  yields : (∀ item ∈ operands, Number.IsOperand (ctx.flags.has .minimalData) item) →
    operation ≠ .numEqualVerify →
    ended = .ok () { before with stack := Number.encode result :: rest }
  /-- One operation only demands that it is not zero. -/
  demands : (∀ item ∈ operands, Number.IsOperand (ctx.flags.has .minimalData) item) →
    operation = .numEqualVerify →
    if result ≠ 0 then ended = .ok () { before with stack := rest }
    else ∃ after, ended = .error .numEqualVerify after
  /-- The number is put on the stack in its shortest form. -/
  shortest : Number.Shortest (Number.encode result) ∧ Number.value (Number.encode result) = result
  short : (∀ item ∈ operands, item.length ≤ 4) → (Number.encode result).length ≤ 5

private theorem Computed.of_run {operands rest : Stack} {result : Int} {ended : EStateM.Result ScriptError State Unit}
    (items : before.stack = operands ++ rest)
    (ran : ended = (popNumbers ctx operands.length >>= fun numbers =>
      settle operation (formula.eval numbers.reverse)) before)
    (value : result = formula.eval (operands.map Number.value).reverse)
    (computes : operation.Computes formula) : Computed ctx before operation operands rest result ended where
  refuses refused := by
    obtain ⟨item,member,unfit⟩ := refused
    have refused : ¬ Number.IsOperand (ctx.flags.has .minimalData) item := by
      intro fine
      rcases unfit with long | ⟨asked,longer⟩
      · exact Nat.not_lt.mpr fine.1 long
      · exact longer (fine.2 asked)
    obtain ⟨after,failed⟩ := popNumbers_of_refused items ⟨item,member,refused⟩
    exact ⟨after,ran.trans (bind_of_failure failed _)⟩
  yields fine pushes := by
    rw [ran,bind_of_success (popNumbers_of_operands items fine),← value,settle,if_neg pushes]
    rfl
  demands fine demands := by
    rw [ran,bind_of_success (popNumbers_of_operands items fine),← value,settle,if_pos demands]
    split
    next equal =>
      rw [decide_eq_true equal]
      rfl
    next unequal =>
      rw [decide_eq_false unequal]
      exact ⟨_,rfl⟩
  shortest := ⟨Number.shortest_encode result,Number.value_encode result⟩
  short small := by
    refine (Number.length_encode_le_iff result 4).mpr ?_
    rw [value]
    refine computes.natAbs_eval_lt fun n member => ?_
    obtain ⟨item,ofOperands,rfl⟩ := List.mem_map.mp (List.mem_reverse.mp member)
    exact Number.natAbs_value_lt (small item ofOperands)

/-- The opcodes for numbers compute their formulas at the values of their operands, and the same over
machine words. -/
theorem execute_formula {opcode : Opcode} (numeric : opcode.formula? = some formula) (ctx : Context)
    (place : Nat) (before : State) (operands rest : Stack) (items : before.stack = operands ++ rest)
    (count : operands.length = formula.arity) :
    Computed ctx before (Operation.ofOpcode opcode) operands rest
      (formula.eval (operands.map Number.value).reverse)
      (execute ctx place (Operation.ofOpcode opcode) before) ∧
    GuardedMachine.execute ctx place (Operation.ofOpcode opcode) before =
      .ok (execute ctx place (Operation.ofOpcode opcode) before) := by
  have computes := Operation.Computes.of_formula? numeric
  have enough : formula.arity ≤ before.stack.length := by
    rw [items,List.length_append,count]
    exact Nat.le_add_right _ _
  refine ⟨.of_run items ?_ rfl computes,execute_numeric_agrees computes place⟩
  rw [count]
  exact execute_numeric computes place enough

/-- The difference of the least and the greatest operand, which has a fifth byte. -/
theorem execute_formula_difference :
    execute ⟨⟨Flags.single .minimalData,Oracle.never⟩,[],false⟩ 0 (Operation.ofOpcode 0x94)
        { stack := [[0xff,0xff,0xff,0x7f],[0xff,0xff,0xff,0xff],[7]] } =
      .ok () { stack := [[0xfe,0xff,0xff,0xff,0x80],[7]] } := by
  have encoded : Number.encode (-0x7fffffff - 0x7fffffff) = [0xfe,0xff,0xff,0xff,0x80] := by decide +kernel
  have minimal : ∀ item ∈ [[0xff,0xff,0xff,0x7f],[0xff,0xff,0xff,0xff]],
      item.length ≤ 4 ∧ Number.isMinimal item = true := by decide
  have fine : ∀ item ∈ [[0xff,0xff,0xff,0x7f],[0xff,0xff,0xff,0xff]], Number.IsOperand true item :=
    fun item member => ⟨(minimal item member).1,fun _ => (Number.isMinimal_iff item).mp (minimal item member).2⟩
  rw [← encoded]
  exact (@execute_formula _ 0x94 rfl ⟨⟨Flags.single .minimalData,Oracle.never⟩,[],false⟩ 0 _
    [[0xff,0xff,0xff,0x7f],[0xff,0xff,0xff,0xff]] [[7]] rfl rfl).1.yields fine nofun

end Machine

end ColorScript
