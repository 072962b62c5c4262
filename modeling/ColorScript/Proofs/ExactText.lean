import ColorScript.Proofs.Reassembly

/-! The scripts that their text tells from all others. A script is read back from its text exactly where each
push is the one that its text would be read as: the chunk of a number, or the shortest push of bytes whose
digits are not taken for a number. -/
namespace ColorScript
open Text

namespace Chunk

variable {header payload : Bytes} {n : Int}

/-- The pushes that are read from their own text. -/
def Exact (header payload : Bytes) : Prop :=
  (payload.length ≤ 4 ∧
    ∃ n, Number.decode payload = .ok n ∧ Script.appendInt [] n = [.push header payload]) ∨
  (5 ≤ payload.length ∧ ofData? payload = .ok (.push header payload) ∧
    ¬ ((Hex.digits payload).all Decimal.isDigit = true ∧
      Decimal.ofDigits (Hex.digits payload) ≤ 2 ^ 31 - 1))

private theorem length_of_ofInt (bound : n.natAbs < 2 ^ 31) (pushed : ofInt n = .push header payload) :
    payload.length ≤ Number.operandSize := by
  rw [ofInt_eq_ofItem (Nat.lt_trans bound (by decide))] at pushed
  rcases ofItem_cases (Number.encode n) with plain | ⟨_,_,_,own⟩
  · rw [plain,ofData,push.injEq] at pushed
    rw [← pushed.2]
    exact (Number.length_encode_le_iff n 3).mpr bound
  · rw [own] at pushed
    cases pushed

-- One case for each way to read a push: as the number that it shows, as a number that only its
-- digits spell, or as the bytes that it shows.
private theorem reread_eq_iff (fits : payload.length ≤ maxPayload) :
    (push header payload).reread = .push header payload ↔ Exact header payload := by
  by_cases short : payload.length ≤ Number.operandSize
  · have four : payload.length ≤ 4 := short
    have long : ¬ 5 ≤ payload.length := by omega
    rw [reread_short short,Exact,or_iff_left fun held => long held.1,and_iff_right four,decode_short short]
    simp [Script.appendInt,Script.append]
  · have long := Nat.not_le.mp short
    have filled : payload ≠ [] := List.ne_nil_of_length_pos (Nat.zero_lt_of_lt long)
    rw [Exact,or_iff_right fun held => short held.1,and_iff_right (show 5 ≤ payload.length from long),
      ← Script.isSome_wordInt?_digits filled,ofData?,if_pos fits,Except.ok.injEq]
    cases read : Script.wordInt? (Hex.digits payload) with
    | some n =>
      rw [reread_number long read]
      exact iff_of_false (fun same => short (length_of_ofInt (Script.natAbs_of_wordInt? read) same))
        fun held => held.2 rfl
    | none =>
      rw [reread_data long read]
      exact (and_iff_left Bool.false_ne_true).symm

end Chunk

namespace Script

variable {script : Script}

private theorem ofAsm_text_eq_iff (shown : ∀ chunk ∈ script, chunk.Shown) :
    ofAsm script.text = .ok script ↔ ∀ chunk ∈ script, chunk.reread = chunk := by
  have same := List.map_inj_left (f := Chunk.reread) (g := id) (l := script)
  rw [List.map_id] at same
  rw [ofAsm_text shown,Except.ok.injEq]
  exact same

private theorem forall_reread_iff (shown : ∀ chunk ∈ script, chunk.Shown) :
    (∀ chunk ∈ script, chunk.reread = chunk) ↔
      ∀ header payload, .push header payload ∈ script → Chunk.Exact header payload := by
  constructor
  · intro same header payload member
    cases shown _ member with
    | push _ _ fits => exact (Chunk.reread_eq_iff fits).mp (same _ member)
  · intro held chunk member
    cases shown chunk member with
    | op code => rfl
    | push header payload fits => exact (Chunk.reread_eq_iff fits).mpr (held header payload member)

/-- The text of a script with names for all its opcodes can be written, and reading it gives the script back
exactly where it does so for each push. -/
theorem text_exact (bytes : Bytes) (named : IsNamed (parse bytes)) :
    Checked.scriptText (parse bytes) = .ok (parse bytes).text ∧
    (ofAsm (parse bytes).text = .ok (parse bytes) ↔
      ∀ header payload, .push header payload ∈ parse bytes → Chunk.Exact header payload) := by
  have shown := (canonical_parse bytes).shown named
  exact ⟨Checked.scriptText_eq _,(ofAsm_text_eq_iff shown).trans (forall_reread_iff shown)⟩

/-- A number of two bytes, ten digits that are too large for a number, and a number with a long header. -/
theorem text_exact_tenDigits :
    ofAsm (parse [0x76,0x02,0xe8,0x03,0x05,0x99,0x99,0x99,0x99,0x99]).text =
      .ok (parse [0x76,0x02,0xe8,0x03,0x05,0x99,0x99,0x99,0x99,0x99]) ∧
    ofAsm (parse [0x4c,0x01,0x11]).text ≠ .ok (parse [0x4c,0x01,0x11]) := by
  have split : parse [0x76,0x02,0xe8,0x03,0x05,0x99,0x99,0x99,0x99,0x99] =
      [.op 0x76,.push [0x02] [0xe8,0x03],.push [0x05] [0x99,0x99,0x99,0x99,0x99]] := by decide +kernel
  have split' : parse [0x4c,0x01,0x11] = [.push [0x4c,0x01] [0x11]] := by decide +kernel
  have named : IsNamed (parse [0x76,0x02,0xe8,0x03,0x05,0x99,0x99,0x99,0x99,0x99]) := by
    rw [split]
    intro bytes member
    simp at member
  have named' : IsNamed (parse [0x4c,0x01,0x11]) := by
    rw [split']
    intro bytes member
    simp at member
  constructor
  · refine (text_exact _ named).2.mpr fun header payload member => ?_
    rw [split] at member
    simp only [List.mem_cons,List.not_mem_nil,or_false,reduceCtorEq,false_or,Chunk.push.injEq] at member
    rcases member with ⟨rfl,rfl⟩ | ⟨rfl,rfl⟩
    · exact .inl ⟨by decide,1000,rfl,by decide +kernel⟩
    · exact .inr ⟨by decide,by decide +kernel,by decide +kernel⟩
  · intro same
    have told := (text_exact _ named').2.mp same [0x4c,0x01] [0x11] (by rw [split']; exact List.mem_cons_self)
    rcases told with ⟨_,n,read,pushed⟩ | ⟨long,_⟩
    · obtain rfl : n = 17 := (Except.ok.inj read).symm
      exact absurd pushed (by decide +kernel)
    · exact absurd long (by decide)

end Script

end ColorScript
