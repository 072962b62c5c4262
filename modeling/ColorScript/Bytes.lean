/-! Byte strings, the starts of lists, and the base-256 numbers that headers, script
numbers and digests are written in. -/
namespace ColorScript

/-- What follows `start` in a list that starts with it. -/
def afterStart? {α : Type} [DecidableEq α] : (start whole : List α) → Option (List α)
  | [], whole => some whole
  | _ :: _, [] => none
  | item :: start, other :: whole => if item = other then afterStart? start whole else none

theorem afterStart?_eq_some {α : Type} [DecidableEq α] {start whole rest : List α} :
    afterStart? start whole = some rest ↔ whole = start ++ rest := by
  induction start generalizing whole with
  | nil => simp [afterStart?]
  | cons item start ih =>
    cases whole with
    | nil => simp [afterStart?]
    | cons other whole =>
      by_cases same : item = other
      · simp [afterStart?, same, ih]
      · simp [afterStart?, same, Ne.symm same]

/-- A byte string. Scripts, stack items, keys and signatures are byte strings. -/
abbrev Bytes := List UInt8

theorem forall_byte {holds : UInt8 → Prop} (each : ∀ n : Fin 256, holds (UInt8.ofFin n))
    (byte : UInt8) : holds byte := each byte.toFin

namespace Bytes

/-- The number whose base-256 digits, least significant first, are `bytes`. -/
def toNat (bytes : Bytes) : Nat :=
  bytes.foldr (fun byte rest => byte.toNat + 256 * rest) 0

def ofNat : (width : Nat) → Nat → Bytes
  | 0, _ => []
  | width + 1, n => UInt8.ofNat n :: ofNat width (n / 256)

@[simp] theorem toNat_nil : toNat [] = 0 := rfl

@[simp] theorem toNat_cons (byte : UInt8) (rest : Bytes) :
    toNat (byte :: rest) = byte.toNat + 256 * toNat rest := rfl

@[simp] theorem length_ofNat (width n : Nat) : (ofNat width n).length = width := by
  induction width generalizing n with
  | zero => rfl
  | succ width ih => simp [ofNat, ih]

end Bytes

end ColorScript
