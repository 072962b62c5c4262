import ColorScript.Checked.Codec
import ColorScript.Proofs.Decimal
import ColorScript.Proofs.Deletion
import ColorScript.Proofs.Faultless.Number

/-! The codec does not fault. Each place that a loop over bytes comes to lies within them, and each sum
of lengths that fit in memory is a word. -/
namespace ColorScript

open Opcode

namespace Chunk

variable {header : Bytes} {length : Nat}

private theorem Header.announced?_append (announced : Header header length) (after : Bytes) :
    Chunk.announced? (header ++ after) = some length := by
  cases header with
  | nil => cases announced
  | cons first lengthBytes =>
    have read := announced.announced?
    have width := announced.length
    rw [List.cons_append]
    simp only [Chunk.announced?] at read ⊢
    split at read
    next direct => rw [if_pos direct,read]
    next sized =>
      rw [if_pos (Nat.le_of_eq width.symm),← width,List.take_length] at read
      rw [if_neg sized,← width,if_pos (by simp),List.take_left,read]

theorem Header.length_lt (announced : Header header length) : length < 2 ^ 32 := by
  cases announced with
  | direct a | one a =>
    have := a.toNat_lt
    omega
  | two a b =>
    have := a.toNat_lt
    have := b.toNat_lt
    omega
  | four a b c d =>
    have := a.toNat_lt
    have := b.toNat_lt
    have := c.toNat_lt
    have := d.toNat_lt
    omega

private theorem lengthWidth_le (opcode : Opcode) : lengthWidth opcode ≤ 4 := by
  unfold lengthWidth
  split
  · decide
  · split
    · decide
    · split <;> decide

end Chunk

namespace Checked

variable {bytes : Bytes} {chunk : Chunk} {script : Script}

theorem slice_middle {α : Type} (front middle back : List α) :
    slice (front ++ (middle ++ back)) front.length (front.length + middle.length) = .ok middle := by
  rw [slice_eq (Nat.le_add_right _ _) (by simp),List.drop_left,Nat.add_sub_cancel_left,List.take_left]

theorem sliceFrom_append {α : Type} (front back : List α) :
    sliceFrom (front ++ back) front.length = .ok back := by
  rw [sliceFrom_eq (by simp),List.drop_left]

theorem index_append {α : Type} (front : List α) (item : α) (back : List α) :
    index (front ++ item :: back) front.length = .ok item :=
  index_of_getElem? (by simp)

private theorem littleEndian_eq {width : Nat} (enough : width ≤ bytes.length) :
    littleEndian width bytes = .ok (Bytes.toNat (bytes.take width)) := by
  induction width with
  | zero => rfl
  | succ width ih =>
    have written : (bytes.take width).length = width := List.length_take_of_le (Nat.le_of_succ_le enough)
    rw [littleEndian,ih (Nat.le_of_succ_le enough),ok_bind,index_eq enough,ok_bind,pure_eq_ok,
      List.take_succ_eq_append_getElem enough,Bytes.toNat_append,written]
    rfl

private theorem lengthAfter?_eq (width : Nat) (bytes : Bytes) : lengthAfter? width bytes =
    .ok (if width ≤ bytes.length then some (Bytes.toNat (bytes.take width)) else none) := by
  unfold lengthAfter?
  split
  next enough =>
    rw [littleEndian_eq (by rw [List.length_take]; omega),List.take_take,Nat.min_self]
    rfl
  next => rfl

private theorem announced?_eq (header : Bytes) : announced? header = .ok (Chunk.announced? header) := by
  cases header with
  | nil => rfl
  | cons opcode lengthBytes =>
    simp only [announced?,Chunk.announced?,lengthAfter?_eq]
    split <;> rfl

theorem isWellFormed_eq (chunk : Chunk) : isWellFormed chunk = .ok chunk.isWellFormed := by
  cases chunk with
  | op code | raw bytes => rfl
  | push header payload =>
    rw [isWellFormed,announced?_eq]
    rfl

theorem isMinimal_eq (chunk : Chunk) : isMinimal chunk = .ok chunk.isMinimal := by
  cases chunk with
  | op code | raw bytes => rfl
  | push header payload =>
    match payload with
    | [] => rfl
    | [byte] =>
      cases own : Chunk.hasOwnOpcode byte with
      | true => simp [isMinimal,Chunk.isMinimal,own,index]
      | false =>
        have single (opcode : Opcode) : opcode.toNat = 1 ↔ opcode = 0x01 :=
          ⟨fun same => UInt8.toNat_inj.mp same,fun same => same ▸ rfl⟩
        simp [isMinimal,Chunk.isMinimal,own,index,single]
    | a :: b :: rest =>
      have several : (a :: b :: rest).length ≠ 0 ∧ (a :: b :: rest).length ≠ 1 := by simp
      simp only [isMinimal,Chunk.isMinimal,if_neg several.1,if_neg several.2,pure_eq_ok,ok_bind,
        Bool.false_eq_true,if_false]
      generalize (a :: b :: rest).length = length
      split_ifs <;> rfl

private theorem chunkSize_eq (fits : chunk.size < 2 ^ 64) : chunkSize chunk = .ok chunk.size := by
  cases chunk with
  | op code | raw bytes => rfl
  | push header payload => exact add_eq fits

private theorem sizeFrom_eq {total : Nat} (fits : total + script.size < 2 ^ 64) :
    script.foldlM (fun total chunk => do add total (← chunkSize chunk)) total =
      .ok (total + script.size) := by
  induction script generalizing total with
  | nil => rfl
  | cons chunk rest ih =>
    have sizes : Script.size (chunk :: rest) = chunk.size + Script.size rest := rfl
    rw [sizes] at fits ⊢
    rw [List.foldlM_cons,chunkSize_eq (by omega),ok_bind,add_eq (by omega),ok_bind,ih (by omega),
      Nat.add_assoc]

theorem size_eq (fits : script.Addressable) : size script = .ok script.size := by
  have bound := fits.bytes
  rw [size,sizeFrom_eq (by omega),Nat.zero_add]

private theorem decode_isOk {bytes : Bytes} (short : bytes.length ≤ Number.operandSize) :
    ∃ n, Number.decode bytes = .ok n := by
  have small : Bytes.toNat (Number.splitSign bytes).1 < 128 * 256 ^ 3 := Number.toNat_splitSign_lt short
  unfold Number.decode
  dsimp only
  rw [if_pos (by omega)]
  exact ⟨_,rfl⟩

theorem text_eq (chunk : Chunk) : text chunk = .ok chunk.text := by
  cases chunk with
  | op code =>
    rw [text,smallInt?_eq,ok_bind,Chunk.text]
    cases Opcode.smallInt? code <;> rfl
  | raw bytes => rfl
  | push header payload =>
    rw [text,Chunk.text,Chunk.payloadText,decode_eq]
    split
    next short =>
      obtain ⟨n,read⟩ := decode_isOk short
      rw [read]
      rfl
    next => rfl

theorem wordInt?_eq (word : List Char) : wordInt? word =
    if Text.Decimal.toInt64? word = some Int64.minValue then .error .overflow
    else .ok (Script.wordInt? word) := by
  rw [wordInt?,Script.wordInt?]
  cases Text.Decimal.toInt64? word with
  | none => rfl
  | some n =>
    by_cases least : n = Int64.minValue
    · have large : integer Int64.minValue.toInt.natAbs = .error .overflow := if_neg (by decide)
      rw [least,if_pos rfl]
      dsimp only
      rw [large]
      rfl
    · have other : n.toInt ≠ -2 ^ 63 := fun same => least (Int64.toInt_inj.mp same)
      have fits : n.toInt.natAbs < 2 ^ 63 := by
        have lower := n.le_toInt
        have upper := n.toInt_lt
        omega
      have limit : Script.maxWordInt.toInt = 2 ^ 31 - 1 := by decide
      have small : (n.toInt.natAbs : Int) ≤ Script.maxWordInt.toInt ↔ n.abs ≤ Script.maxWordInt := by
        rw [limit]
        exact Iff.trans (by omega) (Text.Decimal.abs_le_iff n).symm
      have passes : (n.toInt.natAbs : Int).natAbs < 2 ^ 63 := fits
      rw [if_neg (mt Option.some.inj least),Option.filter_some]
      dsimp only
      rw [integer_eq passes]
      simp only [ok_bind,decide_eq_true_eq,small]
      split <;> rfl

section Parse

variable {front rest after : Bytes} {first : Opcode} {length : Nat}

private theorem chunkAt_header {lengthBytes : Bytes} (announced : Chunk.Header (first :: lengthBytes) length)
    (fits : Bytes.Addressable (front ++ first :: (lengthBytes ++ after))) :
    chunkAt (front ++ first :: (lengthBytes ++ after)) front.length =
      .ok (.push (first :: lengthBytes) (after.take length),
        front.length + ((first :: lengthBytes).length + (after.take length).length)) := by
  have width : (first :: lengthBytes).length = Chunk.lengthWidth first + 1 :=
    congrArg (· + 1) announced.length
  have total : (front ++ first :: (lengthBytes ++ after)).length =
      front.length + (first :: lengthBytes).length + after.length := by
    simp only [List.length_append,List.length_cons]
    omega
  have narrow := Chunk.lengthWidth_le first
  have small := announced.length_lt
  rw [Bytes.Addressable,total] at fits
  have headerEnd : min (front.length + 1 + Chunk.lengthWidth first)
      (front.length + (first :: lengthBytes).length + after.length) =
      front.length + (first :: lengthBytes).length := by omega
  have payloadEnd : min (min (front.length + (first :: lengthBytes).length + length) (2 ^ 64 - 1))
      (front.length + (first :: lengthBytes).length + after.length) =
      front.length + ((first :: lengthBytes).length + (after.take length).length) := by
    rw [List.length_take]
    omega
  have header := slice_middle front (first :: lengthBytes) after
  have payload := slice_middle (front ++ first :: lengthBytes) (after.take length) (after.drop length)
  rw [List.take_append_drop,List.append_assoc,List.length_append,Nat.add_assoc] at payload
  rw [chunkAt,index_append,ok_bind,if_pos announced.isPush,add_eq (by omega),ok_bind,add_eq (by omega),
    ok_bind,total]
  dsimp only
  rw [headerEnd,← List.cons_append,header,ok_bind,announced?_eq,announced.announced?,ok_bind]
  dsimp only
  rw [payloadEnd,payload]
  rfl

private theorem chunkAt_cut (cut : Chunk.CutHeader (first :: rest))
    (fits : Bytes.Addressable (front ++ first :: rest)) :
    chunkAt (front ++ first :: rest) front.length =
      .ok (.push (first :: rest) [],front.length + (first :: rest).length) := by
  have short := cut.length
  have narrow := Chunk.lengthWidth_le first
  rw [Bytes.Addressable,List.length_append,List.length_cons] at fits
  have headerEnd : min (front.length + 1 + Chunk.lengthWidth first) (front ++ first :: rest).length =
      front.length + (first :: rest).length := by
    rw [List.length_append,List.length_cons]
    omega
  have header := slice_middle front (first :: rest) []
  rw [List.append_nil] at header
  rw [chunkAt,index_append,ok_bind,if_pos cut.isPush,add_eq (by omega),ok_bind,add_eq (by omega),ok_bind]
  dsimp only
  rw [headerEnd,header,ok_bind,announced?_eq,cut.announced?,ok_bind]
  dsimp only
  rw [slice_eq (Nat.le_refl _) (by simp),Nat.sub_self,List.take_zero]
  rfl

private theorem chunkAt_eq (fits : Bytes.Addressable (front ++ first :: rest)) :
    chunkAt (front ++ first :: rest) front.length =
      .ok ((Chunk.split first rest).1,front.length + (Chunk.split first rest).1.size) := by
  cases push : Opcode.isPush first with
  | true =>
    rcases Chunk.header_or_cut first rest push with ⟨lengthBytes,after,length,rfl,announced⟩ | cut
    · rw [chunkAt_header announced fits,Chunk.split_header announced]
      rfl
    · rw [chunkAt_cut cut fits,Chunk.split_cut cut]
      rfl
  | false =>
    rw [Bytes.Addressable,List.length_append,List.length_cons] at fits
    simp only [chunkAt,index_append,ok_bind,Chunk.split,push,Bool.false_eq_true,if_false]
    cases isDefined first with
    | true =>
      rw [if_pos rfl,if_pos rfl,add_eq (by omega)]
      rfl
    | false =>
      rw [if_neg (by decide),if_neg (by decide),sliceFrom_append,List.length_append]
      rfl

private theorem chunkAt_drop {place : Nat} (fits : bytes.Addressable) (inside : place < bytes.length) :
    ∃ chunk next, chunkAt bytes place = .ok (chunk,next) ∧ place < next ∧ next ≤ bytes.length ∧
      Script.parse (bytes.drop place) = chunk :: Script.parse (bytes.drop next) := by
  have here : (bytes.take place).length = place := List.length_take_of_le (Nat.le_of_lt inside)
  obtain ⟨first,rest,opens⟩ := List.exists_cons_of_ne_nil
    (List.ne_nil_of_length_pos (by rw [List.length_drop]; omega) : bytes.drop place ≠ [])
  have whole : bytes.take place ++ first :: rest = bytes := opens ▸ List.take_append_drop _ _
  have length : place + (first :: rest).length = bytes.length := by
    rw [← opens,List.length_drop]
    omega
  have read := chunkAt_eq (whole.symm ▸ fits : Bytes.Addressable (bytes.take place ++ first :: rest))
  have written := Chunk.split_toBytes_append first rest
  have shorter := Chunk.length_split_lt first rest
  have lengths := congrArg List.length written
  rw [List.length_append,Chunk.length_toBytes] at lengths
  have left : bytes.drop (place + (Chunk.split first rest).1.size) = (Chunk.split first rest).2 := by
    rw [← List.drop_drop,opens,← written,← Chunk.length_toBytes,List.drop_left]
  rw [whole,here] at read
  refine ⟨_,_,read,by omega,by omega,?_⟩
  rw [opens,left,Script.parse]

theorem parse_eq (fits : bytes.Addressable) : parse bytes = .ok (Script.parse bytes) := by
  have ran : parse bytes = .ok ([] ++ Script.parse (bytes.drop 0)) := by
    refine loop_eq (fun state => state.2 ≤ bytes.length)
      (fun state => state.1 ++ Script.parse (bytes.drop state.2)) ?_ ([],0) (Nat.zero_le _)
    rintro ⟨script,place⟩ inside
    dsimp only at inside ⊢
    by_cases ends : place < bytes.length
    · obtain ⟨chunk,next,read,onward,within,parsed⟩ := chunkAt_drop fits ends
      rw [if_pos ends,read]
      refine .inr ⟨_,rfl,by dsimp only; omega,within,?_⟩
      rw [parsed,List.append_assoc,List.singleton_append]
    · rw [if_neg ends,List.drop_of_length_le (Nat.not_lt.mp ends),Script.parse,List.append_nil]
      exact .inl rfl
  rwa [List.drop_zero,List.nil_append] at ran

end Parse

section Delete

variable {first : UInt8} {more : Bytes}

private theorem operationLength?_eq (fits : bytes.Addressable) :
    operationLength? bytes = .ok (Script.operationLength? bytes) := by
  cases bytes with
  | nil => rfl
  | cons opcode rest =>
    have narrow := Chunk.lengthWidth_le opcode
    rw [Bytes.Addressable,List.length_cons] at fits
    rw [operationLength?]
    cases push : Opcode.isPush opcode with
    | false =>
      have above : pushData4 < opcode := UInt8.not_le.mp (of_decide_eq_false push)
      have large : ¬ opcode < pushData1 := fun small =>
        (by decide : ¬ pushData4 < pushData1) (UInt8.lt_trans above small)
      rw [Script.operationLength?_opcode (.inr above),if_neg large]
      rfl
    | true =>
      rw [announced?_eq,if_neg (by decide),ok_bind]
      rcases Chunk.header_or_cut opcode rest push with ⟨lengthBytes,after,length,rfl,announced⟩ | cut
      · have small := announced.length_lt
        have width := announced.length
        have read := announced.announced?_append after
        rw [List.cons_append] at read
        rw [read]
        dsimp only
        rw [add_eq (by omega),ok_bind,add_eq (by omega),ok_bind,← List.cons_append,
          Script.operationLength?_header announced,List.length_cons,List.length_append,pure_eq_ok]
        congr 1
        exact ite_congr (propext (by omega)) (fun _ => by rw [width]; congr 1; omega) fun _ => rfl
      · rw [cut.announced?,Script.operationLength?_cutHeader cut]
        rfl

private theorem isPrefixOf_eq (start whole : Bytes) : start.isPrefixOf whole = (afterStart? start whole).isSome := by
  cases found : afterStart? start whole with
  | some rest =>
    rw [afterStart?_eq_some] at found
    rw [found]
    exact List.isPrefixOf_iff_prefix.mpr (List.prefix_append _ _)
  | none =>
    refine Bool.eq_false_iff.mpr fun leads => ?_
    obtain ⟨rest,split⟩ := List.isPrefixOf_iff_prefix.mp leads
    exact nomatch found.symm.trans (afterStart?_eq_some.mpr split.symm)

private theorem passOver_spec {place deletions : Nat} (fits : bytes.Addressable) (inside : place ≤ bytes.length) :
    ∃ next copies, passOver (first :: more) bytes place deletions = .ok (next,deletions + copies) ∧
      place ≤ next ∧ next ≤ bytes.length ∧ afterStart? (first :: more) (bytes.drop next) = none ∧
      Script.sweep first more (bytes.drop place) =
        ⟨(Script.sweep first more (bytes.drop next)).kept,
          (Script.sweep first more (bytes.drop next)).deletions + copies⟩ := by
  -- How a place and a count relate to those that the loop ends with.
  let right (state result : Nat × Nat) : Prop :=
    state.1 ≤ result.1 ∧ result.1 ≤ bytes.length ∧
      afterStart? (first :: more) (bytes.drop result.1) = none ∧
      ∃ copies, result.2 = state.2 + copies ∧ Script.sweep first more (bytes.drop state.1) =
        ⟨(Script.sweep first more (bytes.drop result.1)).kept,
          (Script.sweep first more (bytes.drop result.1)).deletions + copies⟩
  suffices ∃ result, passOver (first :: more) bytes place deletions = .ok result ∧
      right (place,deletions) result by
    obtain ⟨⟨next,total⟩,ran,later,within,passed,copies,rfl,swept⟩ := this
    exact ⟨next,copies,ran,later,within,passed,swept⟩
  refine loop_spec (fun state => state.1 ≤ bytes.length) right ?_ (place,deletions) inside
  rintro ⟨place,deletions⟩ inside
  dsimp only at inside ⊢
  rw [sliceFrom_eq inside,ok_bind,isPrefixOf_eq]
  cases found : afterStart? (first :: more) (bytes.drop place) with
  | none => exact .inl ⟨_,rfl,Nat.le_refl _,inside,found,0,rfl,rfl⟩
  | some rest =>
    have split := afterStart?_eq_some.mp found
    have lengths := congrArg List.length split
    rw [List.length_drop,List.length_append,List.length_cons] at lengths
    have behind : bytes.drop (place + (first :: more).length) = rest := by
      rw [← List.drop_drop,split,List.drop_left]
    rw [Bytes.Addressable] at fits
    rw [Option.isSome_some,if_pos rfl,add_eq (by rw [List.length_cons]; omega),ok_bind]
    refine .inr ⟨_,rfl,by simp only [List.length_cons]; omega,by simp only [List.length_cons]; omega,?_⟩
    rintro ⟨next,total⟩ ⟨later,within,passed,copies,counted,swept⟩
    rw [behind] at swept
    refine ⟨Nat.le_trans (Nat.le_add_right _ _) later,within,passed,copies + 1,?_,?_⟩
    · rw [counted]
      dsimp only
      omega
    · rw [Script.sweep_deleted found,swept]
      rfl

private theorem sweepRound_eq {state : Sweeping} (fits : bytes.Addressable) (ordered : state.upTo ≤ state.place)
    (inside : state.place ≤ bytes.length) :
    let swept := Script.sweep first more (bytes.drop state.place)
    let kept := state.kept ++ (bytes.drop state.upTo).take (state.place - state.upTo)
    sweepRound (first :: more) bytes state =
        .ok (.done ⟨kept ++ swept.kept,swept.deletions + state.deletions⟩) ∨
      ∃ next, sweepRound (first :: more) bytes state = .ok (.again next) ∧ state.place < next.place ∧
        next.upTo ≤ next.place ∧ next.place ≤ bytes.length ∧
        let swept' := Script.sweep first more (bytes.drop next.place)
        next.kept ++ (bytes.drop next.upTo).take (next.place - next.upTo) ++ swept'.kept =
            kept ++ swept.kept ∧
          swept'.deletions + next.deletions = swept.deletions + state.deletions := by
  obtain ⟨next,copies,passed,later,within,other,swept⟩ :=
    @passOver_spec bytes first more state.place state.deletions fits inside
  have shorter : Bytes.Addressable (bytes.drop next) := by
    rw [Bytes.Addressable] at fits ⊢
    rw [List.length_drop]
    omega
  have round : sweepRound (first :: more) bytes state =
      goOn (state.kept ++ (bytes.drop state.upTo).take (state.place - state.upTo)) (bytes.drop next) next
        (state.deletions + copies) (Script.operationLength? (bytes.drop next)) := by
    rw [sweepRound,slice_eq ordered inside,ok_bind,passed,ok_bind]
    dsimp only
    rw [sliceFrom_eq within,ok_bind,operationLength?_eq shorter]
    rfl
  dsimp only
  rw [round,swept]
  cases found : Script.operationLength? (bytes.drop next) with
  | none =>
    rw [Script.sweep_ended other found,Nat.zero_add,Nat.add_comm copies]
    exact .inl rfl
  | some length =>
    have bounds := Script.operationLength?_pos found
    rw [List.length_drop] at bounds
    rw [Script.sweep_kept other found,List.drop_drop]
    dsimp only
    rw [Bytes.Addressable] at fits
    rw [goOn,add_eq (by omega),ok_bind]
    refine .inr ⟨_,rfl,by dsimp only; omega,Nat.le_add_right _ _,by dsimp only; omega,?_,?_⟩
    · simp only [Nat.add_sub_cancel_left,List.append_assoc]
    · dsimp only
      omega

theorem sweep_eq (fits : bytes.Addressable) :
    sweep (first :: more) bytes = .ok (Script.sweep first more bytes) := by
  let value (state : Sweeping) : Script.Sweep :=
    ⟨state.kept ++ (bytes.drop state.upTo).take (state.place - state.upTo) ++
        (Script.sweep first more (bytes.drop state.place)).kept,
      (Script.sweep first more (bytes.drop state.place)).deletions + state.deletions⟩
  have ran : sweep (first :: more) bytes = .ok (value {}) := by
    refine loop_eq (fun state => state.upTo ≤ state.place ∧ state.place ≤ bytes.length) value ?_ {}
      ⟨Nat.le_refl _,Nat.zero_le _⟩
    intro state ⟨ordered,inside⟩
    refine (sweepRound_eq fits ordered inside).imp_right fun ⟨next,goes,onward,ordered,within,kept,counted⟩ => ?_
    exact ⟨next,goes,by omega,⟨ordered,within⟩,congrArg₂ Script.Sweep.mk kept counted⟩
  exact ran

theorem length_kept_le (first : UInt8) (more bytes : Bytes) :
    (Script.sweep first more bytes).kept.length ≤ bytes.length := by
  fun_induction Script.sweep first more bytes with
  | case1 bytes rest deleted swept ih =>
    have split := congrArg List.length (afterStart?_eq_some.mp deleted)
    rw [List.length_append] at split
    exact Nat.le_trans ih (by omega)
  | case2 bytes other length found swept ih =>
    have bounds := Script.operationLength?_pos found
    rw [List.length_drop] at ih
    rw [List.length_append,List.length_take]
    exact Nat.le_trans (Nat.add_le_add_left ih _) (by omega)
  | case3 => exact Nat.le_refl _

theorem delete_eq {needle : Script} (fits : script.Addressable) (fits' : needle.Addressable) :
    delete script needle = .ok (script.delete needle) := by
  have bytes : Bytes.Addressable script.toBytes := by
    rw [Bytes.Addressable,Script.length_toBytes]
    exact fits.bytes
  unfold delete Script.delete
  rw [size_eq fits',ok_bind]
  cases needle.toBytes with
  | nil => rfl
  | cons first more =>
    dsimp only
    rw [if_neg (List.cons_ne_nil _ _),size_eq fits,ok_bind,sweep_eq bytes,ok_bind]
    split
    next => rfl
    next => exact parse_eq (Nat.lt_of_le_of_lt (length_kept_le first more script.toBytes) bytes)

end Delete

end Checked

end ColorScript
