import ColorScript.Proofs.Faultless.Stack
import ColorScript.Proofs.Questions

/-! The operations do not fault, those that check signatures aside. A depth is one of a few or is
compared with the stack before, and an operand is so short that there is room for its sums. -/
namespace ColorScript.GuardedMachine

open Guarded
open Machine (push)

variable {ctx : Context} {before : State} {depth n : Nat}

private theorem peek_agrees (small : depth + 1 < 2 ^ 64) : Agrees (peek depth) (Machine.peek depth) before :=
  (Agrees.get before).bind fun _ _ _ => Agrees.computed (Checked.peek?_eq small) (Agrees.lift _ _)

private theorem peek_eq (small : depth + 1 < 2 ^ 64) : peek depth = liftM (Machine.peek depth) :=
  funext fun _ => peek_agrees small

private theorem remove_eq (small : depth + 1 < 2 ^ 64) : remove depth = liftM (do
    let (item,rest) ← Machine.orShort ((← get).stack.remove? depth)
    Machine.setStack rest
    return item : Machine Bytes) :=
  funext fun _ => (Agrees.get _).bind fun _ _ _ => Agrees.computed (Checked.remove?_eq small)
    (Agrees.followed fun _ _ => Agrees.followed fun _ middle => Agrees.pure _ middle)

private theorem insert_eq (depth : Nat) (item : Bytes) : insert depth item = liftM (do
    Machine.setStack (← Machine.orShort ((← get).stack.insert? depth item)) : Machine Unit) :=
  funext fun _ => (Agrees.get _).bind fun _ _ _ => Agrees.computed (Checked.insert?_eq item)
    (Agrees.followed fun _ _ => Agrees.lift _ _)

private theorem swap_eq {a b : Nat} (small : max a b + 1 < 2 ^ 64) : swap a b = liftM (do
    Machine.setStack (← Machine.orShort ((← get).stack.swap? a b)) : Machine Unit) :=
  funext fun _ => (Agrees.get _).bind fun _ _ _ => Agrees.computed (Checked.swap?_eq small)
    (Agrees.followed fun _ _ => Agrees.lift _ _)

private theorem number_agrees (ctx : Context) (size : Nat) (item : Bytes) :
    Agrees (number ctx size item) (Machine.number ctx size item) before := by
  refine Agrees.computed (Checked.operand_eq _ _ _) ?_
  unfold Machine.number
  cases Number.operand size (ctx.flags.has .minimalData) item with
  | ok n => exact Agrees.pure n before
  | error fault => exact Agrees.lift _ before

private theorem popNumber_agrees : Agrees (popNumber ctx) (Machine.popNumber ctx) before :=
  Agrees.followed fun item _ => number_agrees ctx _ item

theorem peekNumber_agrees {size : Nat} (small : depth + 1 < 2 ^ 64) :
    Agrees (peekNumber ctx depth size) (Machine.peekNumber ctx depth size) before :=
  (peek_agrees small).bind fun item _ _ => number_agrees ctx size item

theorem pushNumber_agrees (n : Int) : Agrees (pushNumber n) (Machine.push (Number.encode n)) before :=
  Agrees.computed (Checked.encode_eq n) (Agrees.lift _ _)

theorem charge_agrees (fits : before.opCount + n < 2 ^ 64) :
    Agrees (charge n) (Machine.charge n) before :=
  Agrees.read (Agrees.computed (Checked.add_eq fits) rfl)

theorem checkLockTime_agrees : Agrees (checkLockTime ctx) (Machine.checkLockTime ctx) before := by
  refine Agrees.ite (fun _ => ?_) fun _ => Agrees.lift _ _
  exact (peekNumber_agrees (by decide)).bind fun n _ _ => Agrees.followed fun _ _ =>
    Agrees.followed fun _ _ => Agrees.lift _ _

theorem checkSequence_agrees : Agrees (checkSequence ctx) (Machine.checkSequence ctx) before := by
  refine Agrees.ite (fun _ => ?_) fun _ => Agrees.lift _ _
  refine (peekNumber_agrees (by decide)).bind fun n _ _ => Agrees.followed fun _ middle => ?_
  exact Agrees.ite (fun _ => Agrees.pure () middle) fun _ => Agrees.followed fun _ _ => Agrees.lift _ _

private theorem isShortestTruth_eq (item : Bytes) :
    Checked.isShortestTruth item = .ok (Machine.isShortestTruth item) := by
  match item with
  | [] => rfl
  | [byte] => simp [Checked.isShortestTruth,Machine.isShortestTruth,Checked.index]
  | _ :: _ :: _ => simp [Checked.isShortestTruth,Machine.isShortestTruth]

theorem branch_agrees (ctx : Context) (negated : Bool) :
    Agrees (branch ctx negated) (Machine.branch ctx negated) before := by
  refine (Agrees.get before).bind fun _ _ _ => (Agrees.get _).bind fun _ _ _ => Agrees.ite (fun _ => ?_)
    fun _ => Agrees.lift _ _
  refine Agrees.followed fun item _ => ?_
  refine Agrees.computed (Checked.provided_eq (isShortestTruth_eq item)) (Agrees.followed fun _ _ => ?_)
  exact Agrees.computed (Checked.isTrue_eq item) (Agrees.lift _ _)

theorem verify_agrees : Agrees verify Machine.verify before := by
  refine (peek_agrees (by decide)).bind fun item _ _ => Agrees.computed (Checked.isTrue_eq item) ?_
  exact Agrees.followed fun _ _ => Agrees.followed fun _ middle => Agrees.pure () middle

theorem dupIfTrue_agrees : Agrees dupIfTrue Machine.dupIfTrue before := by
  refine (peek_agrees (by decide)).bind fun item middle _ => Agrees.computed (Checked.isTrue_eq item) ?_
  exact Agrees.ite (fun _ => Agrees.lift _ _) fun _ => Agrees.pure () middle

theorem depth_agrees (ctx : Context) (place : Nat) (fits : before.stack.length < 2 ^ 63) :
    Agrees (execute ctx place .depth) (Machine.execute ctx place .depth) before := by
  refine Agrees.read ?_
  rw [Checked.toInteger_eq fits]
  exact pushNumber_agrees _

theorem size_agrees (ctx : Context) (place : Nat)
    (fits : ∀ item ∈ before.stack, Bytes.Addressable item) :
    Agrees (execute ctx place .size) (Machine.execute ctx place .size) before := by
  refine (peek_agrees (by decide)).bind fun item _ found => ?_
  have inside := List.mem_of_getElem? (Machine.peek_success_iff.mp found).1
  rw [Checked.toInteger_eq (fits item inside)]
  exact pushNumber_agrees _

private theorem natAbs_of_popNumber {n : Int} {after : State} (read : Machine.popNumber ctx before = .ok n after) :
    n.natAbs < 2 ^ 31 := by
  obtain ⟨item,middle,_,read⟩ := bind_success _ _ _ _ _ read
  exact Number.natAbs_lt_of_operand_size (Machine.number_success_iff.mp read).1

private theorem move_agrees (small : depth + 1 < 2 ^ 64) :
    Agrees (do push (← remove depth)) (do
      let (item,rest) ← Machine.orShort ((← get).stack.remove? depth)
      Machine.setStack (item :: rest)) before := by
  have same (found : Option (Bytes × Stack)) : (do
      push (← (do
        let (item,rest) ← Machine.orShort found
        Machine.setStack rest
        return item : Machine Bytes)) : GuardedMachine Unit) before = .ok ((do
      let (item,rest) ← Machine.orShort found
      Machine.setStack (item :: rest) : Machine Unit) before) := by
    cases found <;> rfl
  rw [remove_eq small]
  exact same (before.stack.remove? depth)

theorem fetch_agrees (ctx : Context) (removed : Bool) :
    Agrees (fetch ctx removed) (Machine.fetch ctx removed) before := by
  refine Agrees.followed fun _ _ => popNumber_agrees.bind fun n middle read => Agrees.read ?_
  have bound := natAbs_of_popNumber read
  by_cases negative : n < 0
  · rw [decide_eq_true negative,decide_eq_false (Int.not_le.mpr negative)]
    rfl
  · have positive : 0 ≤ n := Int.not_lt.mp negative
    rw [decide_eq_false negative,decide_eq_true positive,Checked.toSize_eq positive (by omega)]
    rcases Nat.lt_or_ge n.toNat middle.stack.length with inside | short
    · rw [decide_eq_false (Nat.not_le.mpr inside)]
      refine Agrees.followed fun _ _ => Agrees.ite (fun _ => move_agrees (by omega)) fun _ => ?_
      exact (peek_agrees (by omega)).bind fun _ _ _ => Agrees.lift _ _
    · -- Too deep for the stack: the plain step finds nothing there.
      have absent : middle.stack[n.toNat]? = none := List.getElem?_eq_none short
      rw [decide_eq_true short]
      cases removed with
      | false =>
        change Except.ok (.error _ middle) = Except.ok ((Machine.orShort middle.stack[n.toNat]? >>= _) middle)
        rw [absent]
        rfl
      | true =>
        change Except.ok (.error _ middle) =
          Except.ok ((Machine.orShort (middle.stack[n.toNat]?.map _) >>= _) middle)
        rw [absent]
        rfl

theorem unary_agrees (ctx : Context) (function : UnaryFunction) :
    Agrees (unary ctx function) (Machine.unary ctx function) before := by
  refine popNumber_agrees.bind fun n _ read => Agrees.computed (Checked.unary_eq function ?_)
    (pushNumber_agrees _)
  exact Nat.lt_trans (natAbs_of_popNumber read) (by decide)

private theorem popTwo_agrees : Agrees (popTwo ctx) (Machine.popTwo ctx) before :=
  Agrees.followed fun _ _ => popNumber_agrees.bind fun _ _ _ => popNumber_agrees.bind fun _ middle _ =>
    Agrees.pure _ middle

private theorem natAbs_of_popTwo {a b : Int} {after : State}
    (read : Machine.popTwo ctx before = .ok (a,b) after) : a.natAbs < 2 ^ 31 ∧ b.natAbs < 2 ^ 31 := by
  obtain ⟨_,_,_,read⟩ := bind_success _ _ _ _ _ read
  obtain ⟨_,_,second,read⟩ := bind_success _ _ _ _ _ read
  obtain ⟨_,_,first,read⟩ := bind_success _ _ _ _ _ read
  cases read
  exact ⟨natAbs_of_popNumber first,natAbs_of_popNumber second⟩

theorem binary_agrees (ctx : Context) (function : BinaryFunction) :
    Agrees (binary ctx function) (Machine.binary ctx function) before := by
  refine popTwo_agrees.bind fun (a,b) _ read => ?_
  obtain ⟨first,second⟩ := natAbs_of_popTwo read
  refine Agrees.computed (Checked.binary_eq function ?_ ?_) (pushNumber_agrees _)
  · exact Nat.lt_trans first (by decide)
  · exact Nat.lt_trans second (by decide)

theorem numEqualVerify_agrees : Agrees (numEqualVerify ctx) (Machine.numEqualVerify ctx) before :=
  popTwo_agrees.bind fun _ _ _ => Agrees.lift _ _

theorem within_agrees : Agrees (within ctx) (Machine.within ctx) before :=
  Agrees.followed fun _ _ => popNumber_agrees.bind fun _ _ _ => popNumber_agrees.bind fun _ _ _ =>
    popNumber_agrees.bind fun _ _ _ => Agrees.lift _ _

theorem setColor_agrees : Agrees (setColor ctx) (Machine.setColor ctx) before := by
  refine Agrees.followed fun _ _ => (Agrees.get _).bind fun _ _ _ => Agrees.followed fun _ _ =>
    Agrees.followed fun _ _ => (Agrees.get _).bind fun _ _ _ => Agrees.followed fun _ _ => ?_
  refine (peek_agrees (by decide)).bind fun item _ _ => Agrees.computed (Checked.colorOfBytes_eq item) ?_
  cases ColorId.ofBytes item with
  | error fault => exact Agrees.lift _ _
  | ok color => exact Agrees.followed fun _ middle => Agrees.modify _ middle

theorem shuffle_agrees (move : Shuffle) : Agrees (shuffle move) (Machine.shuffle move) before := by
  obtain ⟨stack,alt,flow,opCount,codeStart,color,calls⟩ := before
  match move with
  | .drop => cases stack <;> rfl
  | .dropTwo =>
    match stack with
    | [] | [_] | _ :: _ :: _ => rfl
  | .dup =>
    rw [shuffle,peek_eq (by decide)]
    cases stack <;> rfl
  | .dupTwo =>
    rw [shuffle,peek_eq (by decide),peek_eq (by decide)]
    match stack with
    | [] | [_] | _ :: _ :: _ => rfl
  | .dupThree =>
    rw [shuffle,peek_eq (by decide),peek_eq (by decide),peek_eq (by decide)]
    match stack with
    | [] | [_] | [_,_] | _ :: _ :: _ :: _ => rfl
  | .nip =>
    rw [shuffle,remove_eq (by decide)]
    match stack with
    | [] | [_] | _ :: _ :: _ => rfl
  | .over =>
    rw [shuffle,peek_eq (by decide)]
    match stack with
    | [] | [_] | _ :: _ :: _ => rfl
  | .overTwo =>
    rw [shuffle,peek_eq (by decide),peek_eq (by decide)]
    match stack with
    | [] | [_] | [_,_] | [_,_,_] | _ :: _ :: _ :: _ :: _ => rfl
  | .rot =>
    rw [shuffle,swap_eq (by decide),swap_eq (by decide)]
    match stack with
    | [] | [_] | [_,_] | _ :: _ :: _ :: _ => rfl
  | .rotTwo =>
    rw [shuffle,remove_eq (by decide),remove_eq (by decide)]
    match stack with
    | [] | [_] | [_,_] | [_,_,_] | [_,_,_,_] | [_,_,_,_,_] | _ :: _ :: _ :: _ :: _ :: _ :: _ => rfl
  | .swap =>
    rw [shuffle,swap_eq (by decide)]
    match stack with
    | [] | [_] | _ :: _ :: _ => rfl
  | .swapTwo =>
    rw [shuffle,swap_eq (by decide),swap_eq (by decide)]
    match stack with
    | [] | [_] | [_,_] | [_,_,_] | _ :: _ :: _ :: _ :: _ => rfl
  | .tuck =>
    rw [shuffle,peek_eq (by decide)]
    simp only [insert_eq]
    match stack with
    | [] | [_] | _ :: _ :: _ => rfl

end ColorScript.GuardedMachine
