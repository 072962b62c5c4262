import Mathlib.Algebra.Group.Int.Defs
import Mathlib.Algebra.Group.Nat.Defs
import ColorScript.Bytes

/-! Computations that check what they do to machine words and lists. An index or a range outside of a
list, or a number that does not fit its word, ends them in a fault instead of a result. -/
namespace ColorScript

/-- Why a computation ends without a result. -/
inductive Fault where
  | index
  | range
  | overflow
  | format
  | assertion
  | endless
deriving DecidableEq

abbrev Checked := Except Fault

/-- Whether bytes fit in memory, of which no list takes 2^63 bytes. -/
def Bytes.Addressable (bytes : Bytes) : Prop := bytes.length < 2 ^ 63

namespace Checked

variable {α β : Type}

@[simp] theorem ok_bind (value : α) (next : α → Checked β) :
    ((.ok value : Checked α) >>= next) = next value := rfl

@[simp] theorem pure_eq_ok (value : α) : (pure value : Checked α) = .ok value := rfl

/-- The word of a size or a place: 64 bits. -/
def word (n : Nat) : Checked Nat := if n < 2 ^ 64 then .ok n else .error .overflow

def add (a b : Nat) : Checked Nat := word (a + b)

def sub (a b : Nat) : Checked Nat := if b ≤ a then .ok (a - b) else .error .overflow

def integer (n : Int) : Checked Int :=
  if -2 ^ 63 ≤ n ∧ n < 2 ^ 63 then .ok n else .error .overflow

def shift (byte : UInt8) (bits : Nat) : Checked Nat :=
  if bits < 64 then .ok (byte.toNat * 2 ^ bits % 2 ^ 64) else .error .overflow

/-- A size read as a script number: a size from 2^63 on wraps around. -/
def toInteger (size : Nat) : Int := (size : Int).bmod (2 ^ 64)

def toSize (n : Int) : Nat := (n % 2 ^ 64).toNat

def index (items : List α) (place : Nat) : Checked α :=
  match items[place]? with
  | some item => .ok item
  | none => .error .index

def slice (items : List α) (start stop : Nat) : Checked (List α) :=
  if start ≤ stop ∧ stop ≤ items.length then .ok ((items.drop start).take (stop - start))
  else .error .range

def sliceFrom (items : List α) (start : Nat) : Checked (List α) := slice items start items.length

def provided (condition : Bool) (test : Checked Bool) : Checked Bool :=
  if condition then test else pure true

variable {a b start stop place : Nat} {items : List α}

theorem word_eq (fits : a < 2 ^ 64) : word a = .ok a := if_pos fits

theorem add_eq (fits : a + b < 2 ^ 64) : add a b = .ok (a + b) := if_pos fits

theorem sub_eq (fits : b ≤ a) : sub a b = .ok (a - b) := if_pos fits

theorem integer_eq {n : Int} (fits : n.natAbs < 2 ^ 63) : integer n = .ok n :=
  if_pos (by omega)

theorem shift_eq (byte : UInt8) {bits : Nat} (fits : bits ≤ 56) :
    shift byte bits = .ok (byte.toNat * 2 ^ bits) := by
  have room : byte.toNat * 2 ^ bits < 2 ^ 8 * 2 ^ 56 :=
    Nat.mul_lt_mul_of_lt_of_le byte.toNat_lt (Nat.pow_le_pow_right (by decide) fits) (by decide)
  rw [shift,if_pos (by omega),Nat.mod_eq_of_lt (Nat.lt_of_lt_of_eq room (by decide))]

theorem toInteger_eq (fits : a < 2 ^ 63) : toInteger a = a :=
  Int.bmod_eq_of_le (by omega) (by omega)

theorem toSize_eq {n : Int} (positive : 0 ≤ n) (fits : n < 2 ^ 63) : toSize n = n.toNat := by
  rw [toSize,Int.emod_eq_of_lt positive (by omega)]

theorem index_eq (inside : place < items.length) : index items place = .ok items[place] := by
  rw [index,List.getElem?_eq_getElem inside]

theorem index_of_getElem? {item : α} (found : items[place]? = some item) :
    index items place = .ok item := by
  rw [index,found]

theorem slice_eq (ordered : start ≤ stop) (inside : stop ≤ items.length) :
    slice items start stop = .ok ((items.drop start).take (stop - start)) := if_pos ⟨ordered,inside⟩

theorem sliceFrom_eq (inside : start ≤ items.length) :
    sliceFrom items start = .ok (items.drop start) := by
  rw [sliceFrom,slice_eq inside (Nat.le_refl _),← List.length_drop,List.take_length]

theorem provided_eq {condition passed : Bool} {test : Checked Bool} (tested : test = .ok passed) :
    provided condition test = .ok (!condition || passed) := by
  subst tested
  cases condition <;> rfl

inductive Round (σ α : Type) where
  | again (state : σ)
  | done (result : α)

/-- A loop that must come closer to its end with each round, as `left` measures it. -/
def loop {σ : Type} {m : Type → Type} [Monad m] [MonadLiftT Checked m] (left : σ → Nat)
    (body : σ → m (Round σ α)) (state : σ) : m α := do
  match ← body state with
  | .done result => return result
  | .again next =>
    if left next < left state then loop left body next
    else liftM (throw .endless : Checked α)
termination_by left state

/-- A loop ends in a result that is right for where it started, if its last round gives one, and
each other round leads to where only such results are right. -/
theorem loop_spec {σ : Type} {left : σ → Nat} {body : σ → Checked (Round σ α)} (holds : σ → Prop)
    (right : σ → α → Prop)
    (round : ∀ state, holds state → (∃ result, body state = .ok (.done result) ∧ right state result) ∨
      ∃ next, body state = .ok (.again next) ∧ left next < left state ∧ holds next ∧
        ∀ result, right next result → right state result)
    (state : σ) (held : holds state) : ∃ result, loop left body state = .ok result ∧ right state result := by
  induction closer : left state using Nat.strongRecOn generalizing state with
  | ind n ih =>
    rw [loop]
    rcases round state held with ⟨result,ended,fine⟩ | ⟨next,goes,nearer,held,back⟩
    · rw [ended]
      exact ⟨result,rfl,fine⟩
    · obtain ⟨result,ran,fine⟩ := ih _ (closer ▸ nearer) next held rfl
      rw [goes,ok_bind]
      dsimp only
      rw [if_pos nearer,ran]
      exact ⟨result,rfl,back result fine⟩

theorem loop_eq {σ : Type} {left : σ → Nat} {body : σ → Checked (Round σ α)} (holds : σ → Prop)
    (value : σ → α)
    (round : ∀ state, holds state → body state = .ok (.done (value state)) ∨
      ∃ next, body state = .ok (.again next) ∧ left next < left state ∧ holds next ∧
        value next = value state)
    (state : σ) (held : holds state) : loop left body state = .ok (value state) := by
  obtain ⟨result,ran,rfl⟩ := loop_spec holds (fun state result => result = value state)
    (fun state held => (round state held).imp (fun ended => ⟨_,ended,rfl⟩) fun ⟨next,goes,nearer,held,same⟩ =>
      ⟨next,goes,nearer,held,fun _ fine => fine.trans same⟩) state held
  exact ran

end Checked

end ColorScript
