import ColorScript.Proofs.Charges
import ColorScript.Proofs.Underflow

/-! What a check of several signatures needs on the stack: the two counts, the keys, the signatures, and
below them one more item that is not used. It looks for all of them before it starts but that last one.
Where just that one is missing, the signatures are taken off the stack and tried, and the check fails with
no items left. -/
namespace ColorScript.Machine

section Starving

variable {α : Type} {n : Nat} {first : Machine α}

/-- A step for which `n` items are too few. It fails on them only when none is left. -/
def Starves (n : Nat) (step : Machine Unit) : Prop :=
  ∀ before, before.stack.length = n → ∃ error after, step before = .error error after ∧ after.stack = []

namespace Starves

theorem pop {next : Bytes → Machine Unit} (tail : ∀ item, Starves n (next item)) :
    Starves (n + 1) (Machine.pop >>= next) := by
  intro before length
  obtain ⟨item,rest,items⟩ := List.exists_cons_of_length_eq_add_one length
  rw [bind_of_success (pop_cons items)]
  rw [items] at length
  exact tail item { before with stack := rest } (Nat.succ.inj length)

theorem popMany {k : Nat} {next : List Bytes → Machine Unit} (tail : ∀ items, Starves n (next items)) :
    Starves (n + k) (Machine.popMany k >>= next) := by
  induction k generalizing next with
  | zero => exact tail []
  | succ k ih =>
    rw [Machine.popMany,bind_assoc]
    refine pop fun item => ?_
    rw [bind_assoc]
    exact ih fun items => tail (item :: items)

theorem after {oracle : Oracle} {asks : Query → Prop} {questions : Nat} {next : α → Machine Unit}
    (moves : Moves oracle asks 0 questions first) (tail : ∀ value, Starves 0 (next value)) :
    Starves 0 (first >>= next) := by
  intro before none
  have moved := (moves before).stack
  rw [none] at moved
  have empty : (final (first before)).stack = [] := List.length_eq_zero_iff.mp (Nat.le_zero.mp moved)
  cases done : first before with
  | ok value middle =>
    rw [done] at empty
    rw [bind_of_success done]
    exact tail value middle (List.length_eq_zero_iff.mpr empty)
  | error error middle =>
    rw [done] at empty
    exact ⟨error,middle,bind_of_failure done next,empty⟩

theorem look {next : α → Machine Unit} (looks : Looks first) (tail : ∀ value, Starves 0 (next value)) :
    Starves 0 (first >>= next) := by
  have moves : Moves Oracle.never (fun _ => True) 0 0 first := looks.moves
  exact after moves tail

private theorem dry {next : Bytes → Machine Unit} : Starves 0 (Machine.pop >>= next) := by
  intro before none
  have empty := List.length_eq_zero_iff.mp none
  exact ⟨_,before,bind_of_failure (pop_nil empty) next,empty⟩

end Starves

end Starving

variable {ctx : Context} {before : State} {keyCount sigCount : Nat}

private theorem checkCounted_starves (ctx : Context) (ending : Ending) (keyCount sigCount : Nat) :
    Starves (0 + sigCount + 1 + keyCount + 1) (checkCounted ctx ending keyCount sigCount) := by
  refine Starves.pop fun _ => Starves.popMany fun keys => Starves.pop fun _ => Starves.popMany fun sigs => ?_
  refine Starves.look Looks.get fun _ => Starves.look (ofExcept_looks _) fun code =>
    Starves.look (ensure_looks _ _) fun _ => ?_
  have matched : Moves ctx.oracle (fun _ => True) 0 keys.length (matchKeys ctx code sigs keys) :=
    matchKeys_moves code fun _ _ _ _ _ _ => trivial
  exact Starves.after matched fun left => Starves.look (ensure_looks _ _) fun _ => Starves.dry

/-- The counts of keys and signatures are on the stack, and there is an operation left for every key. -/
structure Counted (ctx : Context) (before : State) (keyCount sigCount : Nat) : Prop where
  keys : ∃ top, before.stack.peek? 0 = some top ∧
    Number.operand Number.operandSize (ctx.flags.has .minimalData) top = .ok keyCount
  few : keyCount ≤ 20
  room : before.opCount + keyCount ≤ 201
  sigs : ∃ item, before.stack.peek? (keyCount + 1) = some item ∧
    Number.operand Number.operandSize (ctx.flags.has .minimalData) item = .ok sigCount
  fewer : sigCount ≤ keyCount

namespace Counted

theorem multisigCounts_eq (counted : Counted ctx before keyCount sigCount) :
    multisigCounts ctx before =
      (do
        require (keyCount + 2 + sigCount)
        return (keyCount, sigCount)) { before with opCount := before.opCount + keyCount } := by
  obtain ⟨top,found,read⟩ := counted.keys
  obtain ⟨item,found',read'⟩ := counted.sigs
  obtain ⟨deep,_⟩ := List.getElem?_eq_some_iff.mp found'
  let charged : State := { before with opCount := before.opCount + keyCount }
  have nonempty : require 1 before = .ok () before := require_of_le (by omega)
  have keysRead : peekNumber ctx 0 Number.operandSize before = .ok keyCount before :=
    peekNumber_success_iff.mpr ⟨top,found,read,rfl⟩
  have keysFew : ensure (0 ≤ (keyCount : Int) && (keyCount : Int) ≤ maxKeys) .pubkeyCount before =
      .ok () before := by
    have few : (keyCount : Int) ≤ maxKeys := Int.ofNat_le.mpr counted.few
    exact ensure_success_iff.mpr ⟨by simp [few],rfl⟩
  have paid : charge keyCount before = .ok () charged := charge_success_iff.mpr ⟨counted.room,rfl⟩
  have keysThere : require (keyCount + 2) charged = .ok () charged := require_of_le deep
  have sigsRead : peekNumber ctx (keyCount + 1) Number.operandSize charged = .ok sigCount charged :=
    peekNumber_success_iff.mpr ⟨item,found',read',rfl⟩
  have sigsFewer : ensure (0 ≤ (sigCount : Int) && (sigCount : Int) ≤ keyCount) .sigCount charged =
      .ok () charged := by
    have fewer : (sigCount : Int) ≤ keyCount := Int.ofNat_le.mpr counted.fewer
    exact ensure_success_iff.mpr ⟨by simp [fewer],rfl⟩
  rw [multisigCounts,bind_of_success nonempty,bind_of_success keysRead,bind_of_success keysFew]
  simp only [Int.toNat_natCast]
  rw [bind_of_success paid,bind_of_success keysThere,bind_of_success sigsRead,bind_of_success sigsFewer]
  simp only [Int.toNat_natCast]
  rfl

private theorem execute_eq (counted : Counted ctx before keyCount sigCount) (ending : Ending) (place : Nat) :
    execute ctx place (.checkMultiSig ending) before =
      (require (keyCount + 2 + sigCount) >>= fun _ => checkCounted ctx ending keyCount sigCount)
        { before with opCount := before.opCount + keyCount } := by
  change checkMultiSig ctx ending before = _
  rw [checkMultiSig_eq,bind_of_eq counted.multisigCounts_eq,bind_assoc]
  simp only [pure_bind]

theorem refused (counted : Counted ctx before keyCount sigCount) (ending : Ending) (place : Nat)
    (fewer : before.stack.length < keyCount + sigCount + 2) :
    execute ctx place (.checkMultiSig ending) before =
      .error .invalidStackOperation { before with opCount := before.opCount + keyCount } := by
  let charged : State := { before with opCount := before.opCount + keyCount }
  have short : charged.stack.length < keyCount + 2 + sigCount := by
    change before.stack.length < _
    omega
  exact (counted.execute_eq ending place).trans (bind_of_failure (require_short short) _)

private theorem starved (counted : Counted ctx before keyCount sigCount) (ending : Ending) (place : Nat)
    (exact : before.stack.length = keyCount + sigCount + 2) :
    ∃ error after, execute ctx place (.checkMultiSig ending) before = .error error after ∧
      after.stack = [] := by
  let charged : State := { before with opCount := before.opCount + keyCount }
  have enough : keyCount + 2 + sigCount ≤ charged.stack.length := by
    change _ ≤ before.stack.length
    omega
  have length : charged.stack.length = 0 + sigCount + 1 + keyCount + 1 := by
    change before.stack.length = _
    omega
  rw [counted.execute_eq,bind_of_success (require_of_le enough)]
  exact checkCounted_starves ctx ending keyCount sigCount charged length

end Counted

/-- A check of several signatures finds out that an item is missing before it does anything exactly if
an item is missing that it uses. Where only the unused one is missing, it fails as well, but with no items
left. -/
theorem checkMultiSig_frame (counted : Counted ctx before keyCount sigCount) (ending : Ending) (place : Nat)
    (short : before.stack.length < keyCount + sigCount + 3) :
    ((∃ after, execute ctx place (.checkMultiSig ending) before = .error .invalidStackOperation after ∧
        after.calls = before.calls ∧ after.stack = before.stack) ↔
      before.stack.length < keyCount + sigCount + 2) ∧
    (before.stack.length = keyCount + sigCount + 2 →
      ∃ error after, execute ctx place (.checkMultiSig ending) before = .error error after ∧
        after.stack = []) := by
  refine ⟨⟨?_,fun fewer => ⟨_,counted.refused ending place fewer,rfl,rfl⟩⟩,counted.starved ending place⟩
  rintro ⟨after,failed,_,kept⟩
  refine Nat.lt_of_not_le fun enough => ?_
  have exact : before.stack.length = keyCount + sigCount + 2 := by omega
  obtain ⟨error,last,failed',none⟩ := counted.starved ending place exact
  cases failed.symm.trans failed'
  rw [← kept,none] at enough
  exact Nat.not_succ_le_zero _ enough

/-- One signature and one key, with both counts and nothing else. -/
theorem checkMultiSig_frame_oneOfOne :
    ∃ error after, execute ⟨⟨Flags.single .nullFail,Oracle.never⟩,[],false⟩ 0 (.checkMultiSig .yield)
      { stack := [[1],[2],[1],[9]] } = .error error after ∧ after.stack = [] :=
  (checkMultiSig_frame ⟨⟨[1],rfl,rfl⟩,by decide,by decide,⟨[1],rfl,rfl⟩,by decide⟩ .yield 0
    (by decide)).2 rfl

/-- The same is asked about, and refused as a signature that should have been empty. -/
theorem checkMultiSig_missing_unused :
    ¬ ∀ (ctx : Context) (before : State) (keyCount sigCount : Nat) (ending : Ending) (place : Nat),
      Counted ctx before keyCount sigCount → before.stack.length < keyCount + sigCount + 3 →
      ∃ after, execute ctx place (.checkMultiSig ending) before = .error .invalidStackOperation after ∧
        after.calls = before.calls ∧ after.stack = before.stack := by
  intro framed
  obtain ⟨after,failed,_⟩ := framed ⟨⟨Flags.single .nullFail,Oracle.never⟩,[],false⟩
    { stack := [[1],[2],[1],[9]] } 1 1 .yield 0
    ⟨⟨[1],rfl,rfl⟩,by decide,by decide,⟨[1],rfl,rfl⟩,by decide⟩ (by decide)
  have refused : failsWith .sigNullFail (execute ⟨⟨Flags.single .nullFail,Oracle.never⟩,[],false⟩ 0
      (.checkMultiSig .yield) { stack := [[1],[2],[1],[9]] }) = true := by decide +kernel
  rw [failed] at refused
  cases refused

end ColorScript.Machine
