import ColorScript.Script

/-! Deleting the bytes of one script from another wherever they stand at the start of an
operation. -/
namespace ColorScript.Script

def completeLength? (bytes : Bytes) (lead length : Nat) : Option Nat :=
  if (bytes.take (lead + length)).length = lead + length then some (lead + length) else none

/-- The length of the operation at the start of bytes: a complete push, or any other
single byte. -/
def operationLength? (bytes : Bytes) : Option Nat :=
  match bytes with
  | [] => none
  | 0x4c :: a :: _ => completeLength? bytes 2 a.toNat
  | 0x4c :: _ => none
  | 0x4d :: a :: b :: _ => completeLength? bytes 3 (a.toNat + 256 * b.toNat)
  | 0x4d :: _ => none
  | 0x4e :: a :: b :: c :: d :: _ =>
    completeLength? bytes 5 (a.toNat + 256 * (b.toNat + 256 * (c.toNat + 256 * d.toNat)))
  | 0x4e :: _ => none
  | opcode :: _ => if opcode < 0x4c then completeLength? bytes 1 opcode.toNat else some 1

theorem completeLength?_pos {bytes : Bytes} {lead length total : Nat} (positive : 0 < lead)
    (complete : completeLength? bytes lead length = some total) :
    0 < total ∧ total ≤ bytes.length := by
  unfold completeLength? at complete
  split at complete
  next h =>
    rw [List.length_take] at h
    cases complete
    omega
  next => cases complete

theorem operationLength?_pos {bytes : Bytes} {total : Nat}
    (found : operationLength? bytes = some total) : 0 < total ∧ total ≤ bytes.length := by
  unfold operationLength? at found
  split at found
  all_goals try contradiction
  · exact completeLength?_pos (by decide) found
  · exact completeLength?_pos (by decide) found
  · exact completeLength?_pos (by decide) found
  · split at found
    · exact completeLength?_pos (by decide) found
    · cases found
      simp

structure Sweep where
  kept : Bytes
  deletions : Nat

/-- Goes over bytes operation by operation. Where the bytes `first :: more` stand, they
are deleted and the bytes behind them are looked at again; an operation is kept
otherwise. The sweep ends where no complete operation starts. -/
def sweep (first : UInt8) (more bytes : Bytes) : Sweep :=
  match deleted : afterStart? (first :: more) bytes with
  | some rest =>
    let swept := sweep first more rest
    ⟨swept.kept, swept.deletions + 1⟩
  | none =>
    match _found : operationLength? bytes with
    | some length =>
      let swept := sweep first more (bytes.drop length)
      ⟨bytes.take length ++ swept.kept, swept.deletions⟩
    | none => ⟨bytes, 0⟩
termination_by bytes.length
decreasing_by
  · rw [afterStart?_eq_some.1 deleted]
    simp only [List.cons_append, List.length_cons, List.length_append]
    omega
  · have := operationLength?_pos _found
    rw [List.length_drop]
    omega

/-- The script without the bytes of another one. The script itself is the answer if
nothing is deleted, else what is kept is split into chunks anew. -/
def delete (script needle : Script) : Script :=
  match needle.toBytes with
  | [] => script
  | first :: more =>
    let swept := sweep first more script.toBytes
    if swept.deletions = 0 then script else parse swept.kept

end ColorScript.Script
