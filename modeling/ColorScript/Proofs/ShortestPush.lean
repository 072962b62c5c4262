import ColorScript.Proofs.Codec
import ColorScript.Proofs.NumberCodec

/-! The shortest way to push an item: its own opcode if it has one, else a push with the shortest
header. No other chunk that pushes the item is shorter, and of all pushes only this one passes
for minimal. -/
namespace ColorScript
open Opcode

theorem Bytes.toNat_inj {first second : Bytes} (width : first.length = second.length)
    (same : first.toNat = second.toNat) : first = second := by
  induction first generalizing second with
  | nil => exact (List.length_eq_zero_iff.mp width.symm).symm
  | cons byte rest ih =>
    cases second with
    | nil => cases width
    | cons byte' rest' =>
      have low := byte.toNat_lt
      have low' := byte'.toNat_lt
      rw [toNat_cons,toNat_cons] at same
      have head : byte = byte' := UInt8.toNat.inj (by omega)
      have tail : rest = rest' := ih (Nat.succ.inj width) (by omega)
      rw [head,tail]

namespace Chunk

/-- The opcode that pushes one byte, for the bytes that have one. -/
def ownOpcode (byte : UInt8) : Opcode := if byte = 0x81 then negateOne else 0x50 + byte

/-- The shortest chunk that pushes an item. -/
def ofItem : Bytes → Chunk
  | [byte] => if hasOwnOpcode byte then .op (ownOpcode byte) else ofData [byte]
  | item => ofData item

variable {header other payload item : Bytes} {length : Nat}

theorem length_shortestHeader (length : Nat) :
    (shortestHeader length).length =
      if length < 0x4c then 1 else if length ≤ 0xff then 2 else if length ≤ 0xffff then 3 else 5 := by
  unfold shortestHeader
  repeat' split
  all_goals simp

theorem header_shortest (bound : length ≤ maxPayload) : Header (shortestHeader length) length := by
  have digit (n : Nat) : (UInt8.ofNat n).toNat = n % 256 := UInt8.toNat_ofNat'
  unfold maxPayload at bound
  unfold shortestHeader
  split
  next small =>
    have direct : UInt8.ofNat length < pushData1 := by
      rw [UInt8.lt_iff_toNat_lt,digit]
      exact Nat.lt_of_le_of_lt (Nat.mod_le _ _) small
    have same : (UInt8.ofNat length).toNat = length := by rw [digit]; omega
    have announced := Header.direct (UInt8.ofNat length) direct
    rwa [same] at announced
  next =>
    split
    next small =>
      have same : (UInt8.ofNat length).toNat = length := by rw [digit]; omega
      have announced := Header.one (UInt8.ofNat length)
      rwa [same] at announced
    next =>
      split
      next small =>
        have same : (UInt8.ofNat length).toNat + 256 * (UInt8.ofNat (length / 256)).toNat = length := by
          rw [digit,digit]
          omega
        have announced := Header.two (UInt8.ofNat length) (UInt8.ofNat (length / 256))
        rwa [same] at announced
      next =>
        have same : (UInt8.ofNat length).toNat + 256 * ((UInt8.ofNat (length / 256)).toNat +
            256 * ((UInt8.ofNat (length / 256 / 256)).toNat +
              256 * (UInt8.ofNat (length / 256 / 256 / 256)).toNat)) = length := by
          rw [digit,digit,digit,digit]
          omega
        have announced := Header.four (UInt8.ofNat length) (UInt8.ofNat (length / 256))
          (UInt8.ofNat (length / 256 / 256)) (UInt8.ofNat (length / 256 / 256 / 256))
        rwa [same] at announced

theorem Header.unique {first : Opcode} {lengthBytes lengthBytes' : Bytes}
    (announced : Header (first :: lengthBytes) length)
    (announced' : Header (first :: lengthBytes') length) : lengthBytes = lengthBytes' := by
  have width := announced.length
  have width' := announced'.length
  have read := announced.announced?
  have read' := announced'.announced?
  by_cases none : lengthWidth first = 0
  · rw [List.length_eq_zero_iff.mp (width.trans none),List.length_eq_zero_iff.mp (width'.trans none)]
  · rw [Chunk.announced?,if_neg none,if_pos (Nat.le_of_eq width.symm),← width,List.take_length] at read
    rw [Chunk.announced?,if_neg none,if_pos (Nat.le_of_eq width'.symm),← width',List.take_length]
      at read'
    have same := Option.some.inj (read.trans read'.symm)
    exact Bytes.toNat_inj (width.trans width'.symm) same

private theorem Header.length_shortest_le (announced : Header header length) :
    (shortestHeader length).length ≤ header.length := by
  rw [length_shortestHeader]
  cases announced with
  | direct opcode small =>
    have bound : opcode.toNat < 0x4c := UInt8.lt_iff_toNat_lt.mp small
    rw [if_pos bound]
    exact Nat.le_refl 1
  | one a =>
    have bound := a.toNat_lt
    simp only [List.length_cons,List.length_nil]
    grind
  | two a b =>
    have bound := a.toNat_lt
    have bound' := b.toNat_lt
    simp only [List.length_cons,List.length_nil]
    grind
  | four a b c d =>
    simp only [List.length_cons,List.length_nil]
    grind

/-- No push of an item is shorter than the shortest chunk for it. -/
theorem size_ofItem_le (announced : Header header item.length) :
    (ofItem item).size ≤ (push header item).size := by
  have shortest := announced.length_shortest_le
  have pushed : (ofData item).size ≤ (push header item).size :=
    Nat.add_le_add_right shortest item.length
  unfold ofItem
  split
  next byte =>
    split
    next => exact Nat.le_add_left 1 _
    next => exact pushed
  next => exact pushed

theorem ownOpcode_range {byte : UInt8} (own : hasOwnOpcode byte = true) :
    pushData4 < ownOpcode byte ∧ ownOpcode byte ≤ sixteen := by
  have each : ∀ byte, hasOwnOpcode byte = true →
      pushData4 < ownOpcode byte ∧ ownOpcode byte ≤ sixteen := forall_byte (by decide +kernel)
  exact each byte own

theorem isDefined_ownOpcode {byte : UInt8} (own : hasOwnOpcode byte = true) :
    isDefined (ownOpcode byte) = true := by
  have each : ∀ byte, hasOwnOpcode byte = true → isDefined (ownOpcode byte) = true :=
    forall_byte (by decide +kernel)
  exact each byte own

theorem ofItem_cases (item : Bytes) :
    ofItem item = ofData item ∨
      ∃ byte, item = [byte] ∧ hasOwnOpcode byte = true ∧ ofItem item = .op (ownOpcode byte) := by
  unfold ofItem
  split
  next byte =>
    split
    next own => exact .inr ⟨byte,rfl,own,rfl⟩
    next => exact .inl rfl
  next => exact .inl rfl

/-- The chunk of an integer is the shortest push of its script number. The numbers of nine bytes reach
beyond all integers of 64 bits. -/
theorem ofInt_eq_ofItem {n : Int} (bound : n.natAbs < 2 ^ 71) :
    ofInt n = ofItem (Number.encode n) := by
  have short : (Number.encode n).length ≤ 9 := (Number.length_encode_le_iff n 8).mpr bound
  unfold ofInt
  split
  next opcode small =>
    unfold ofSmallInt? at small
    split at small
    next zero =>
      cases small
      rw [zero]
      decide +kernel
    next =>
      split at small
      next negative =>
        cases small
        rw [negative]
        decide +kernel
      next =>
        split at small
        next range =>
          cases small
          have each : ∀ i : Fin 16, ofOpcode (0x50 + UInt8.ofNat (i + 1)) = ofItem (Number.encode (i + 1)) := by
            decide +kernel
          obtain ⟨k,rfl⟩ : ∃ k : Nat, n = k + 1 := ⟨(n - 1).toNat,by omega⟩
          exact each ⟨k,by omega⟩
        next => cases small
  next large =>
    rcases ofItem_cases (Number.encode n) with plain | ⟨byte,single,own,_⟩
    · rw [plain,ofData,shortestHeader,if_pos (by omega)]
    · have each : ∀ byte, hasOwnOpcode byte = true → (ofSmallInt? (Number.value [byte])).isSome = true :=
        forall_byte (by decide +kernel)
      have known := each byte own
      rw [← single,Number.value_encode,large] at known
      cases known

private theorem isMinimal_push_iff (bound : item.length ≤ 0xffff) :
    (push header item).isMinimal = true ↔
      ofItem item = ofData item ∧ header.headD 0x00 = (shortestHeader item.length).headD 0x00 := by
  match item with
  | [] => simp [isMinimal,ofItem,shortestHeader]
  | [byte] =>
    cases own : hasOwnOpcode byte with
    | true => simp [isMinimal,ofItem,own,ofData]
    | false => simp [isMinimal,ofItem,own,shortestHeader]
  | a :: b :: rest =>
    -- Minimality only looks at the first byte of the header, band by band.
    have plain : ofItem (a :: b :: rest) = ofData (a :: b :: rest) := rfl
    simp only [isMinimal,plain,true_and]
    generalize header.headD 0x00 = first
    generalize (a :: b :: rest).length = length at bound
    unfold shortestHeader
    split
    next small =>
      have digit : (UInt8.ofNat length).toNat = length :=
        UInt8.toNat_ofNat_of_lt (Nat.lt_trans small (by decide))
      rw [decide_eq_true_eq,List.headD_cons,← UInt8.toNat_inj,digit]
    next =>
      split
      next => rw [decide_eq_true_eq,List.headD_cons]
      next => rw [decide_eq_true_eq,List.headD_cons]

/-- The only minimal push of an item is the shortest chunk for it. -/
theorem isMinimal_iff (announced : Header header item.length) (bound : item.length ≤ 0xffff) :
    (push header item).isMinimal = true ↔ push header item = ofItem item := by
  have shortest : Header (shortestHeader item.length) item.length :=
    header_shortest (Nat.le_trans bound (by decide))
  rw [isMinimal_push_iff bound]
  constructor
  · rintro ⟨plain,same⟩
    have equal : header = shortestHeader item.length := by
      cases header with
      | nil => cases announced
      | cons first lengthBytes =>
        generalize shortestHeader item.length = header' at shortest same
        cases header' with
        | nil => cases shortest
        | cons first' lengthBytes' =>
          cases same
          rw [announced.unique shortest]
    rw [plain,ofData,equal]
  · intro same
    rcases ofItem_cases item with plain | ⟨byte,_,_,own⟩
    · rw [plain,ofData,push.injEq] at same
      exact ⟨plain,congrArg (·.headD 0x00) same.1⟩
    · rw [own] at same
      cases same

theorem isMinimal_ofItem (bound : item.length ≤ 0xffff) : (ofItem item).isMinimal = true := by
  rcases ofItem_cases item with plain | ⟨byte,_,_,own⟩
  · rw [plain]
    exact (isMinimal_push_iff bound).mpr ⟨plain,rfl⟩
  · rw [own]
    rfl

theorem isMinimal_ofData_iff (bound : item.length ≤ 0xffff) :
    (ofData item).isMinimal = false ↔ ∃ byte, item = [byte] ∧ hasOwnOpcode byte = true := by
  rw [← Bool.not_eq_true,ofData,isMinimal_push_iff bound,not_and_or,or_iff_left (not_not.mpr rfl)]
  constructor
  · intro other
    rcases ofItem_cases item with plain | ⟨byte,same,own,_⟩
    · exact absurd plain other
    · exact ⟨byte,same,own⟩
  · rintro ⟨byte,rfl,own⟩ plain
    rw [ofItem,if_pos own,ofData] at plain
    cases plain

theorem complete_ofData (bound : item.length ≤ maxPayload) : (ofData item).Complete :=
  .push _ _ (header_shortest bound)

theorem ofData?_eq_ok_iff {chunk : Chunk} :
    ofData? item = .ok chunk ↔ item.length ≤ maxPayload ∧ chunk = ofData item := by
  rw [ofData?]
  split
  next short => rw [Except.ok.injEq,and_iff_right short,eq_comm]
  next long => exact iff_of_false nofun fun held => long held.1

private theorem complete_ofItem (bound : item.length ≤ maxPayload) : (ofItem item).Complete := by
  rcases ofItem_cases item with plain | ⟨byte,_,own,same⟩
  · rw [plain]
    exact complete_ofData bound
  · rw [same]
    obtain ⟨above,_⟩ := ownOpcode_range own
    exact .op _ (isDefined_ownOpcode own) above

theorem complete_ofInt {n : Int} (bound : n.natAbs < 2 ^ 71) : (ofInt n).Complete := by
  have short : (Number.encode n).length ≤ 9 := (Number.length_encode_le_iff n 8).mpr bound
  rw [ofInt_eq_ofItem bound]
  exact complete_ofItem (Nat.le_trans short (by decide))

private theorem Header.first_le (announced : Header header length) : header.headD 0x00 ≤ pushData4 := by
  cases header with
  | nil => cases announced
  | cons first lengthBytes => exact of_decide_eq_true announced.isPush

theorem opcode_ofItem_le (bound : item.length ≤ maxPayload) : (ofItem item).opcode ≤ sixteen := by
  rcases ofItem_cases item with plain | ⟨byte,_,own,same⟩
  · rw [plain]
    exact UInt8.le_trans (header_shortest bound).first_le (by decide)
  · rw [same]
    exact (ownOpcode_range own).2

end Chunk

end ColorScript
