import ColorScript.Proofs.Hex
import ColorScript.Script

/-! Which scripts bytes are split into. The wire format of a chunk is stated here without
the reader: complete chunks stand anywhere, unfinished ones only at the end. Reading gives
exactly the scripts of this form, and writing them gives the bytes back. -/
namespace ColorScript
open Opcode

namespace Chunk

/-- The complete headers of pushes, with the payload length that each announces. -/
inductive Header : Bytes → Nat → Prop
  | direct (opcode : Opcode) (small : opcode < pushData1) : Header [opcode] opcode.toNat
  | one (a : UInt8) : Header [pushData1,a] a.toNat
  | two (a b : UInt8) : Header [pushData2,a,b] (a.toNat + 256 * b.toNat)
  | four (a b c d : UInt8) : Header [pushData4,a,b,c,d]
      (a.toNat + 256 * (b.toNat + 256 * (c.toNat + 256 * d.toNat)))

/-- The headers of pushes that end before their length bytes do. -/
inductive CutHeader : Bytes → Prop
  | one : CutHeader [pushData1]
  | two (bytes : Bytes) (short : bytes.length < 2) : CutHeader (pushData2 :: bytes)
  | four (bytes : Bytes) (short : bytes.length < 4) : CutHeader (pushData4 :: bytes)

/-- The chunks that may stand anywhere: operations with a name, and pushes of exactly the
length that their header announces. -/
inductive Complete : Chunk → Prop
  | op (code : Opcode) (defined : isDefined code = true) (above : pushData4 < code) :
      Complete (.op code)
  | push (header payload : Bytes) (announced : Header header payload.length) :
      Complete (.push header payload)

/-- The chunks that the end of the bytes leaves: a push with too few bytes, a header without
all its length bytes, or an opcode without a name and all that follows. -/
inductive Unfinished : Chunk → Prop
  | payload (header payload : Bytes) (length : Nat) (announced : Header header length)
      (short : payload.length < length) : Unfinished (.push header payload)
  | header (header : Bytes) (cut : CutHeader header) : Unfinished (.push header [])
  | raw (first : Opcode) (rest : Bytes) (undefined : isDefined first = false) :
      Unfinished (.raw (first :: rest))

theorem isDefined_of_isPush (opcode : Opcode) (push : Opcode.isPush opcode = true) :
    isDefined opcode = true := by
  revert opcode
  exact forall_byte (by decide +kernel)

private theorem not_push_of_above (opcode : Opcode) (above : pushData4 < opcode) :
    Opcode.isPush opcode = false := by
  simpa only [Opcode.isPush,decide_eq_false_iff_not,UInt8.not_le] using above

private theorem push_cases (opcode : Opcode) (push : Opcode.isPush opcode = true) :
    opcode < pushData1 ∨ opcode = pushData1 ∨ opcode = pushData2 ∨ opcode = pushData4 := by
  have bound : opcode.toNat ≤ 0x4e := UInt8.le_iff_toNat_le.mp (of_decide_eq_true push)
  have same (code : UInt8) (h : opcode.toNat = code.toNat) : opcode = code := UInt8.toNat.inj h
  by_cases small : opcode.toNat < 0x4c
  · exact .inl (UInt8.lt_iff_toNat_lt.mpr small)
  · have range : opcode.toNat = 0x4c ∨ opcode.toNat = 0x4d ∨ opcode.toNat = 0x4e := by omega
    exact .inr (range.imp (same pushData1) (.imp (same pushData2) (same pushData4)))

private theorem lengthWidth_two : lengthWidth pushData2 = 2 := by decide

private theorem lengthWidth_four : lengthWidth pushData4 = 4 := by decide

private theorem lengthWidth_direct (opcode : Opcode) (small : opcode < pushData1) :
    lengthWidth opcode = 0 := by
  have ne (code : UInt8) (large : 0x4c ≤ code.toNat) : opcode ≠ code := by
    rintro rfl
    have := UInt8.lt_iff_toNat_lt.mp small
    simp only [UInt8.toNat_ofNat] at this
    omega
  simp only [lengthWidth,ne pushData1 (by decide),ne pushData2 (by decide),
    ne pushData4 (by decide),if_false]

theorem Header.isPush {first : Opcode} {lengthBytes : Bytes} {length : Nat}
    (announced : Header (first :: lengthBytes) length) : Opcode.isPush first = true := by
  cases announced with
  | direct _ small =>
    have := UInt8.lt_iff_toNat_lt.mp small
    simp only [UInt8.toNat_ofNat] at this
    simp only [Opcode.isPush,decide_eq_true_eq,UInt8.le_iff_toNat_le,UInt8.toNat_ofNat]
    omega
  | one | two | four => rfl

theorem CutHeader.isPush {first : Opcode} {bytes : Bytes} (cut : CutHeader (first :: bytes)) :
    Opcode.isPush first = true := by
  cases cut <;> rfl

theorem Header.announced? {header : Bytes} {length : Nat} (announced : Header header length) :
    announced? header = some length := by
  cases announced with
  | direct opcode small => simp [Chunk.announced?,lengthWidth_direct opcode small]
  | one => simp [Chunk.announced?,lengthWidth]
  | two => simp [Chunk.announced?,lengthWidth_two]
  | four => simp [Chunk.announced?,lengthWidth_four]

theorem Header.length {first : Opcode} {lengthBytes : Bytes} {length : Nat}
    (announced : Header (first :: lengthBytes) length) :
    lengthBytes.length = lengthWidth first := by
  cases announced with
  | direct _ small => simp [lengthWidth_direct first small]
  | one | two | four => rfl

theorem CutHeader.announced? {header : Bytes} (cut : CutHeader header) :
    announced? header = none := by
  cases cut with
  | one => simp [Chunk.announced?,lengthWidth]
  | two bytes short => simp [Chunk.announced?,lengthWidth_two,short]
  | four bytes short => simp [Chunk.announced?,lengthWidth_four,short]

theorem CutHeader.length {first : Opcode} {bytes : Bytes} (cut : CutHeader (first :: bytes)) :
    bytes.length ≤ lengthWidth first := by
  cases cut with
  | one => simp [lengthWidth]
  | two _ short => exact Nat.le_of_lt (lengthWidth_two ▸ short)
  | four _ short => exact Nat.le_of_lt (lengthWidth_four ▸ short)

theorem header_or_cut (first : Opcode) (rest : Bytes) (push : Opcode.isPush first = true) :
    (∃ lengthBytes after length, rest = lengthBytes ++ after ∧
      Header (first :: lengthBytes) length) ∨ CutHeader (first :: rest) := by
  rcases push_cases first push with small | rfl | rfl | rfl
  · exact .inl ⟨[],rest,first.toNat,rfl,.direct first small⟩
  · cases rest with
    | nil => exact .inr .one
    | cons a after => exact .inl ⟨[a],after,_,rfl,.one a⟩
  · match rest with
    | [] | [_] => exact .inr (.two _ (by simp))
    | a :: b :: after => exact .inl ⟨[a,b],after,_,rfl,.two a b⟩
  · match rest with
    | [] | [_] | [_,_] | [_,_,_] => exact .inr (.four _ (by simp))
    | a :: b :: c :: d :: after => exact .inl ⟨[a,b,c,d],after,_,rfl,.four a b c d⟩

theorem split_header {first : Opcode} {lengthBytes : Bytes} {length : Nat}
    (announced : Header (first :: lengthBytes) length) (after : Bytes) :
    split first (lengthBytes ++ after) =
      (.push (first :: lengthBytes) (after.take length),after.drop length) := by
  have width := announced.length
  simp only [split,announced.isPush,if_true,List.take_left' width,List.drop_left' width,
    announced.announced?]

theorem split_cut {first : Opcode} {bytes : Bytes} (cut : CutHeader (first :: bytes)) :
    split first bytes = (.push (first :: bytes) [],[]) := by
  have width := cut.length
  simp only [split,cut.isPush,if_true,List.take_of_length_le width,
    List.drop_of_length_le width,cut.announced?]

theorem opcode_split (first : Opcode) (rest : Bytes) : (split first rest).1.opcode = first := by
  unfold split
  split
  · dsimp only
    split <;> rfl
  · split <;> rfl

/-- What is split off is complete, or unfinished with nothing left. -/
theorem split_complete_or (first : Opcode) (rest : Bytes) :
    Complete (split first rest).1 ∨
      Unfinished (split first rest).1 ∧ (split first rest).2 = [] := by
  by_cases push : Opcode.isPush first = true
  · rcases header_or_cut first rest push with ⟨lengthBytes,after,length,rfl,announced⟩ | cut
    · rw [split_header announced]
      by_cases enough : length ≤ after.length
      · refine .inl (.push _ _ ?_)
        rw [List.length_take_of_le enough]
        exact announced
      · have short : after.length < length := by omega
        refine .inr ⟨.payload _ _ length announced ?_,List.drop_of_length_le (by omega)⟩
        rw [List.length_take]
        omega
    · rw [split_cut cut]
      exact .inr ⟨.header _ cut,rfl⟩
  · simp only [split,push]
    by_cases defined : isDefined first = true
    · simp only [defined,if_true]
      refine .inl (.op first defined ?_)
      simpa only [Opcode.isPush,decide_eq_true_eq,UInt8.not_le] using push
    · simp only [defined]
      exact .inr ⟨.raw first rest (by simpa using defined),rfl⟩

theorem Complete.split_append {chunk : Chunk} (complete : Complete chunk) :
    ∃ first more, chunk.toBytes = first :: more ∧
      ∀ after, split first (more ++ after) = (chunk,after) := by
  cases complete with
  | op code defined above =>
    refine ⟨code,[],rfl,fun after => ?_⟩
    simp [split,not_push_of_above code above,defined]
  | push header payload announced =>
    cases header with
    | nil => cases announced
    | cons first lengthBytes =>
      refine ⟨first,lengthBytes ++ payload,rfl,fun after => ?_⟩
      rw [List.append_assoc,split_header announced,List.take_left,List.drop_left]

theorem Unfinished.split_end {chunk : Chunk} (unfinished : Unfinished chunk) :
    ∃ first more, chunk.toBytes = first :: more ∧ split first more = (chunk,[]) := by
  cases unfinished with
  | payload header payload length announced short =>
    cases header with
    | nil => cases announced
    | cons first lengthBytes =>
      refine ⟨first,lengthBytes ++ payload,rfl,?_⟩
      rw [split_header announced,List.take_of_length_le (by omega),
        List.drop_of_length_le (by omega)]
  | header header cut =>
    cases header with
    | nil => nomatch cut
    | cons first bytes => exact ⟨first,bytes,by simp [toBytes],split_cut cut⟩
  | raw first rest undefined =>
    refine ⟨first,rest,rfl,?_⟩
    have push : ¬ Opcode.isPush first = true := by
      intro push
      rw [isDefined_of_isPush first push] at undefined
      cases undefined
    simp [split,push,undefined]

theorem Complete.isWellFormed {chunk : Chunk} (complete : Complete chunk) :
    chunk.isWellFormed = true := by
  cases complete with
  | op code defined above => rfl
  | push header payload announced => exact decide_eq_true announced.announced?

theorem Unfinished.not_isWellFormed {chunk : Chunk} (unfinished : Unfinished chunk)
    (push : chunk.isPush = true) : chunk.isWellFormed = false := by
  cases unfinished with
  | payload header payload length announced short =>
    rw [isWellFormed,announced.announced?,decide_eq_false_iff_not,Option.some.injEq]
    exact Nat.ne_of_gt short
  | header header cut =>
    rw [isWellFormed,cut.announced?]
    rfl
  | raw first rest undefined => cases push

end Chunk

namespace Script

/-- The scripts that bytes are split into: complete chunks, the last of which may be
unfinished instead. -/
inductive Canonical : Script → Prop
  | nil : Canonical []
  | last (chunk : Chunk) (unfinished : chunk.Unfinished) : Canonical [chunk]
  | cons (chunk : Chunk) (rest : Script) (complete : chunk.Complete)
      (canonical : Canonical rest) : Canonical (chunk :: rest)

theorem Canonical.of_complete {script : Script} (complete : ∀ chunk ∈ script, chunk.Complete) :
    Canonical script := by
  induction script with
  | nil => exact .nil
  | cons chunk rest ih =>
    obtain ⟨first,others⟩ := List.forall_mem_cons.mp complete
    exact .cons chunk rest first (ih others)

theorem canonical_parse (bytes : Bytes) : Canonical (parse bytes) := by
  fun_induction parse bytes with
  | case1 => exact .nil
  | case2 first rest ih =>
    rcases Chunk.split_complete_or first rest with complete | ⟨unfinished,finished⟩
    · exact .cons _ _ complete ih
    · rw [finished,parse]
      exact .last _ unfinished

theorem parse_complete_append {chunk : Chunk} (complete : chunk.Complete) (after : Bytes) :
    parse (chunk.toBytes ++ after) = chunk :: parse after := by
  obtain ⟨first,more,written,split⟩ := complete.split_append
  rw [written,List.cons_append,parse,split]

theorem parse_unfinished {chunk : Chunk} (unfinished : chunk.Unfinished) :
    parse chunk.toBytes = [chunk] := by
  obtain ⟨first,more,written,split⟩ := unfinished.split_end
  rw [written,parse,split,parse]

theorem parse_op {code : Opcode} (defined : isDefined code = true) (above : pushData4 < code)
    (rest : Bytes) : parse (code :: rest) = .op code :: parse rest :=
  parse_complete_append (.op code defined above) rest

theorem Canonical.parse_toBytes {script : Script} (canonical : Canonical script) :
    parse script.toBytes = script := by
  induction canonical with
  | nil => rw [toBytes,List.flatMap_nil,parse]
  | last chunk unfinished =>
    rw [toBytes,List.flatMap_singleton]
    exact parse_unfinished unfinished
  | cons chunk rest complete canonical ih =>
    rw [toBytes,List.flatMap_cons,← toBytes,parse_complete_append complete,ih]

/-- Reading what was written gives exactly the canonical scripts back. -/
theorem parse_toBytes_iff (script : Script) : parse script.toBytes = script ↔ Canonical script := by
  constructor
  · intro same
    rw [← same]
    exact canonical_parse script.toBytes
  · exact Canonical.parse_toBytes

theorem ofHex_toHex (script : Script) : ofHex script.toHex = .ok (parse script.toBytes) := by
  rw [ofHex,toHex,Text.Hex.decode_encode]

/-- Every byte string is split into a canonical script that writes the same bytes, and the
canonical scripts are exactly those that are read back, from bytes or from hexadecimal text. -/
theorem codec_image :
    (∀ bytes : Bytes, Canonical (parse bytes) ∧ toBytes (parse bytes) = bytes ∧
      size (parse bytes) = bytes.length) ∧
    ∀ script : Script, (parse script.toBytes = script ↔ Canonical script) ∧
      (ofHex script.toHex = .ok script ↔ Canonical script) := by
  constructor
  · intro bytes
    have same := toBytes_parse bytes
    refine ⟨canonical_parse bytes,same,?_⟩
    rw [← length_toBytes,same]
  · intro script
    refine ⟨parse_toBytes_iff script,?_⟩
    rw [ofHex_toHex,Except.ok.injEq]
    exact parse_toBytes_iff script

end Script

end ColorScript
