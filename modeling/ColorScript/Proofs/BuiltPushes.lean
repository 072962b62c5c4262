import Mathlib.Data.List.Forall2
import ColorScript.Proofs.Arithmetic
import ColorScript.Proofs.PushEncoding
import ColorScript.Proofs.VerificationRuns
import ColorScript.Script.Builder

/-! What is appended to a script is what its run leaves. The pieces of a built script become chunks that carry
the numbers and the data, and only data that an opcode would push is not minimal. -/
namespace ColorScript

namespace Script

/-- The item that a piece is to leave on the stack: an integer of 64 bits as a script number, and data of the
size of an item as it is. -/
inductive Piece.Leaves : Piece → Bytes → Prop
  | int (n : Int) (least : -2 ^ 63 ≤ n) (below : n < 2 ^ 63) : Leaves (.int n) (Number.encode n)
  | data (bytes : Bytes) (short : bytes.length ≤ 520) : Leaves (.data bytes) bytes

/-- Data of one byte that an opcode pushes as well. -/
def Piece.Wasteful (piece : Piece) : Prop :=
  ∃ byte : UInt8, piece = .data [byte] ∧ ((1 ≤ byte ∧ byte ≤ 16) ∨ byte = 0x81)

variable {piece : Piece} {pieces : List Piece} {item : Bytes} {items : List Bytes}

private theorem Piece.wasteful_data_iff {bytes : Bytes} : (Piece.data bytes).Wasteful ↔
    ∃ byte, bytes = [byte] ∧ Chunk.hasOwnOpcode byte = true := by
  simp [Wasteful,Chunk.hasOwnOpcode]

theorem Piece.Leaves.length_le (leaves : piece.Leaves item) : item.length ≤ 520 := by
  cases leaves with
  | int n least below =>
    have nine : (Number.encode n).length ≤ 9 := (Number.length_encode_le_iff n 8).mpr (by omega)
    exact Nat.le_trans nine (by decide)
  | data bytes short => exact short

/-- The step lemma: the chunk of a piece carries its item, and is minimal unless the piece is wasteful. -/
theorem Piece.Leaves.chunk (leaves : piece.Leaves item) : ∃ chunk, piece.chunk? = .ok chunk ∧
    chunk.Carries item ∧ (chunk.isMinimal = false ↔ piece.Wasteful) := by
  have short : item.length ≤ 0xffff := Nat.le_trans leaves.length_le (by decide)
  have fits : item.length ≤ Chunk.maxPayload := Nat.le_trans short (by decide)
  cases leaves with
  | int n least below =>
    have same : Chunk.ofInt n = Chunk.ofItem (Number.encode n) := Chunk.ofInt_eq_ofItem (by omega)
    have minimal : (Chunk.ofInt n).isMinimal = true := same ▸ Chunk.isMinimal_ofItem short
    refine ⟨_,rfl,same ▸ Chunk.carries_ofItem fits,iff_of_false (Bool.eq_false_iff.not_left.mpr minimal) ?_⟩
    rintro ⟨byte,impossible,_⟩
    cases impossible
  | data bytes short' =>
    refine ⟨_,if_pos fits,Chunk.carries_ofData fits,?_⟩
    rw [Chunk.isMinimal_ofData_iff short,wasteful_data_iff]

-- The run lemma for the builder.
private theorem build_leaves (leaves : List.Forall₂ Piece.Leaves pieces items) : ∃ script,
    build pieces = .ok script ∧ List.Forall₂ Chunk.Carries script items ∧
      ((∃ chunk ∈ script, chunk.isMinimal = false) ↔ ∃ piece ∈ pieces, piece.Wasteful) := by
  rw [build_eq]
  induction leaves with
  | nil => exact ⟨[],rfl,.nil,iff_of_false nofun nofun⟩
  | @cons piece item pieces items first others ih =>
    obtain ⟨chunk,becomes,carries,minimal⟩ := first.chunk
    obtain ⟨script,become,carry,minimal'⟩ := ih
    refine ⟨chunk :: script,?_,.cons carries carry,?_⟩
    · rw [List.mapM_cons,becomes,become]
      rfl
    · rw [List.exists_mem_cons_iff,List.exists_mem_cons_iff,minimal,minimal']

private theorem length_le_of_leaves (leaves : List.Forall₂ Piece.Leaves pieces items) :
    ∀ item ∈ items, item.length ≤ 520 := by
  induction leaves with
  | nil => exact nofun
  | cons first others ih => exact List.forall_mem_cons.mpr ⟨first.length_le,ih⟩

end Script

namespace Machine

variable {ctx : Context} {before : State} {place : Nat} {chunk : Chunk} {chunks : List Chunk}

private theorem advance_longer {item : Bytes} (carries : chunk.Carries item) (short : item.length ≤ maxItem)
    (strict : ctx.flags.has .minimalData = true) (longer : chunk.isMinimal = false)
    (outside : before.flow = []) : advance ctx place chunk before = .error .minimalData before := by
  cases carries with
  | own byte own => cases longer
  | push header item announced =>
    have fits : ensure (decide (item.length ≤ maxItem)) .pushSize before = .ok () before :=
      ensure_success_iff.mpr ⟨decide_eq_true short,rfl⟩
    have executing : before.executing = true := State.executing_of_outside outside
    have refused : pushPayload ctx (.push header item) item before = .error .minimalData before := by
      rw [pushPayload,bind_of_success fits,get_bind_apply,if_pos executing,strict,longer]
      rfl
    exact bind_of_failure refused _

private theorem advanceAll_longer {items : List Bytes} (carries : List.Forall₂ Chunk.Carries chunks items)
    (short : ∀ item ∈ items, item.length ≤ maxItem) (strict : ctx.flags.has .minimalData = true)
    (longer : ∃ chunk ∈ chunks, chunk.isMinimal = false) (outside : before.flow = [])
    (room : before.stack.length + items.length + before.alt.length ≤ maxItems) :
    ∃ after, advanceAll ctx place chunks before = .error .minimalData after := by
  induction carries generalizing place before with
  | nil =>
    obtain ⟨chunk,member,_⟩ := longer
    cases member
  | @cons chunk item chunks items first others ih =>
    rw [List.forall_mem_cons] at short
    rw [List.length_cons] at room
    rw [advanceAll]
    cases minimal : chunk.isMinimal with
    | false => exact ⟨_,bind_of_failure (advance_longer first short.1 strict minimal outside) _⟩
    | true =>
      have stepped : advance ctx place chunk before =
          .ok () { before with stack := item :: before.stack } :=
        advance_carries first short.1 (fun _ => minimal) outside (by omega)
      have longer' : ∃ chunk ∈ chunks, chunk.isMinimal = false := by
        rw [List.exists_mem_cons_iff,minimal] at longer
        exact longer.resolve_left (by decide)
      have room' : (item :: before.stack).length + items.length + before.alt.length ≤ maxItems := by
        rw [List.length_cons]
        omega
      rw [bind_of_success stepped]
      exact ih short.2 longer' outside room'

private theorem popNumber_encode {n : Int} {rest : Stack} (bound : n.natAbs < 2 ^ 31)
    (top : before.stack = Number.encode n :: rest) :
    popNumber ctx before = .ok n { before with stack := rest } := by
  have read := popNumber_of_operand top (Number.isOperand_encode bound (ctx.flags.has .minimalData))
  rwa [Number.value_encode] at read

end Machine

namespace Session

open Script

variable {before : Session}

theorem evaluate_longer {script : Script} {items : List Bytes} {rules : Rules} (redeem : Bool)
    (empty : before.stack = []) (carries : List.Forall₂ Chunk.Carries script items)
    (short : ∀ item ∈ items, item.length ≤ Machine.maxItem) (few : items.length ≤ Machine.maxItems)
    (strict : rules.flags.has .minimalData = true) (longer : ∃ chunk ∈ script, chunk.isMinimal = false)
    (size : script.size ≤ Script.maxSize) :
    ∃ after, evaluate rules script redeem before = .error (.failed .minimalData) after := by
  let ctx : Context := { rules with script, redeem }
  obtain ⟨state,failed⟩ : ∃ state, Machine.advanceAll ctx 0 script before.start = .error .minimalData state :=
    Machine.advanceAll_longer carries short strict longer rfl (room_of_empty empty few)
  have fits : Machine.ensure (decide (script.size ≤ Script.maxSize)) .scriptSize before.start =
      .ok () before.start := Machine.ensure_success_iff.mpr ⟨decide_eq_true size,rfl⟩
  have ran : Machine.run ctx before.start = .error .minimalData state := by
    rw [Machine.run,bind_of_success fits]
    exact bind_of_failure failed _
  exact ⟨_,evaluate_of_failure before ran⟩

/-- A script that is built of integers and data is read back from its bytes, and its run leaves the numbers
and the data. Where pushes must be minimal, it fails instead if some data has an opcode of its own. The numbers
that fit four bytes are read as operands, whatever the flags. -/
theorem build_pushes :
    (∀ pieces items, List.Forall₂ Piece.Leaves pieces items → pieces.length ≤ 1000 →
      ∃ script, build pieces = .ok script ∧ (script.size ≤ 10000 →
        parse script.toBytes = script ∧
        ∀ rules redeem before, before.stack = [] →
          (rules.flags.has .minimalData = false ∨ (¬ ∃ piece ∈ pieces, piece.Wasteful) →
            ∃ after, evaluate rules script redeem before = .ok () after ∧ after.stack = items.reverse) ∧
          (rules.flags.has .minimalData = true → (∃ piece ∈ pieces, piece.Wasteful) →
            ∃ after, evaluate rules script redeem before = .error (.failed .minimalData) after))) ∧
    ∀ n : Int, n.natAbs ≤ 2 ^ 31 - 1 → ∀ ctx before rest, before.stack = Number.encode n :: rest →
      Machine.popNumber ctx before = .ok n { before with stack := rest } := by
  refine ⟨?_,fun n bound ctx before rest => Machine.popNumber_encode (Nat.lt_of_le_pred (by decide) bound)⟩
  intro pieces items leaves many
  obtain ⟨script,built,carries,minimal⟩ := build_leaves leaves
  have short : ∀ item ∈ items, item.length ≤ Machine.maxItem := length_le_of_leaves leaves
  have few : items.length ≤ Machine.maxItems := leaves.length_eq ▸ many
  refine ⟨script,built,fun size => ⟨(canonical_of_carries carries).parse_toBytes,?_⟩⟩
  intro rules redeem before empty
  constructor
  · intro lenient
    refine evaluate_carries rules redeem empty carries short few (fun strict chunk member => ?_) size
    have none : ¬ ∃ piece ∈ pieces, piece.Wasteful := by
      refine lenient.resolve_left ?_
      rw [strict]
      nofun
    by_contra longer
    exact none (minimal.mp ⟨chunk,member,Bool.not_eq_true _ ▸ longer⟩)
  · intro strict wasteful
    exact evaluate_longer redeem empty carries short few strict (minimal.mpr wasteful) size

/-- The least integer, which is too long for an operand, and data of one byte with an opcode of its own and
without. -/
theorem build_pushes_leastInteger :
    (∃ script, build [.int (-0x8000000000000000),.data [0x05]] = .ok script ∧
      parse script.toBytes = script ∧
      (∃ after, evaluate ⟨Flags.mandatory,Oracle.never⟩ script false {} = .ok () after ∧
        after.stack = [[0x05],[0x00,0x00,0x00,0x00,0x00,0x00,0x00,0x80,0x80]]) ∧
      ∃ after, evaluate ⟨Flags.standard,Oracle.never⟩ script false {} = .error (.failed .minimalData) after) ∧
    (∃ script, build [.int 5,.data [0x11]] = .ok script ∧
      ∃ after, evaluate ⟨Flags.standard,Oracle.never⟩ script false {} = .ok () after ∧
        after.stack = [[0x11],[0x05]]) ∧
    Machine.popNumber ⟨⟨Flags.standard,Oracle.never⟩,[],false⟩ { stack := [[0xff,0xff,0xff,0xff]] } =
      .ok (-0x7fffffff) { stack := [] } := by
  have least : Number.encode (-0x8000000000000000) =
      [0x00,0x00,0x00,0x00,0x00,0x00,0x00,0x80,0x80] := by decide +kernel
  have five : Number.encode 5 = [0x05] := by decide +kernel
  refine ⟨?_,?_,build_pushes.2 _ (by decide) _ _ [] (by decide +kernel)⟩
  · obtain ⟨script,built,fine⟩ := build_pushes.1 [.int (-0x8000000000000000),.data [0x05]] _
      (.cons (.int _ (by decide) (by decide)) (.cons (.data _ (by decide)) .nil)) (by decide)
    have size : script.size ≤ 10000 := by
      have chunks : build [.int (-0x8000000000000000),.data [0x05]] =
          .ok [.push [0x09] [0x00,0x00,0x00,0x00,0x00,0x00,0x00,0x80,0x80],.push [0x01] [0x05]] := by
        decide +kernel
      obtain rfl := Except.ok.inj (built.symm.trans chunks)
      decide
    have wasteful : ∃ piece ∈ [.int (-0x8000000000000000),Piece.data [0x05]], piece.Wasteful :=
      ⟨_,List.mem_cons_of_mem _ List.mem_cons_self,0x05,rfl,.inl (by decide)⟩
    obtain ⟨parsed,runs⟩ := fine size
    refine ⟨script,built,parsed,?_,(runs _ _ _ rfl).2 (by decide) wasteful⟩
    rw [← least]
    exact (runs _ _ _ rfl).1 (.inl (by decide))
  · obtain ⟨script,built,fine⟩ := build_pushes.1 [.int 5,.data [0x11]] _
      (.cons (.int _ (by decide) (by decide)) (.cons (.data _ (by decide)) .nil)) (by decide)
    have size : script.size ≤ 10000 := by
      have chunks : build [.int 5,.data [0x11]] = .ok [.op 0x55,.push [0x01] [0x11]] := rfl
      obtain rfl := Except.ok.inj (built.symm.trans chunks)
      decide
    have plain : ¬ ∃ piece ∈ [.int 5,Piece.data [0x11]], piece.Wasteful := by
      simp [Piece.Wasteful]
    refine ⟨script,built,?_⟩
    rw [← five]
    exact ((fine size).2 _ _ _ rfl).1 (.inr plain)

end Session

end ColorScript
