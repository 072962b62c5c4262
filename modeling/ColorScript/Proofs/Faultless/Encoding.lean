import ColorScript.Checked.Encoding
import ColorScript.Proofs.Faultless.Codec

/-! The checks of encodings do not fault. Where bytes of a signature say where to look next, the
checks before have made sure that the signature goes on until there. -/
namespace ColorScript.Checked

open Signature

variable {content : Bytes} {tag size first second : UInt8} {length : Nat}

theorem index_behind {α : Type} {place : Nat} {item : α} (front : List α) {back : List α} (behind : Nat)
    (found : back[behind]? = some item) (counted : place = front.length + behind) :
    index (front ++ back) place = .ok item := by
  rw [counted,index,List.getElem?_append_right (Nat.le_add_right _ _),Nat.add_sub_cancel_left,found]

private theorem isIntegerAt_eq {sig : Bytes} {place : Nat} (front : Bytes) (split : sig = front ++ tag :: size :: content)
    (here : place = front.length) (fits : length ≤ content.length) (small : sig.length ≤ 73) :
    isIntegerAt sig place length = .ok (tag = 0x02 && isPositiveInteger (content.take length)) := by
  subst split here
  rw [List.length_append] at small
  rw [isIntegerAt,index_append,ok_bind]
  by_cases tagged : tag = 0x02
  · cases length with
    | zero => rw [if_pos (.inr rfl)]; simp [isPositiveInteger]
    | succ length =>
      match content with
      | [] => cases fits
      | [first] =>
        obtain rfl : length = 0 := by simpa using fits
        rw [if_neg (by simp [tagged]),add_eq (by omega),ok_bind,index_behind front _ rfl rfl,ok_bind]
        cases sign : Number.topBit first <;> simp [isPositiveInteger,tagged,sign]
      | first :: second :: rest =>
        rw [if_neg (by simp [tagged]),add_eq (by omega),ok_bind,index_behind front _ rfl rfl,ok_bind,
          add_eq (by omega),ok_bind,index_behind front _ rfl rfl,ok_bind]
        cases length with
        | zero => cases sign : Number.topBit first <;> simp [isPositiveInteger,tagged,sign]
        | succ length =>
          have clear : Number.topBit 0x00 = false := rfl
          by_cases zero : first = 0x00
          · simp [isPositiveInteger,tagged,zero,clear]
          · cases sign : Number.topBit first <;> simp [isPositiveInteger,tagged,sign,zero]
  · rw [if_pos (.inl tagged)]
    simp [tagged]

section Body

variable {rTag rLength sTag sLength : UInt8} {rest : Bytes}

private theorem isStrictBody_tag (other : rTag ≠ 0x02) : isStrictBody (rTag :: rLength :: rest) = false := by
  unfold isStrictBody
  split
  next same => exact absurd (List.cons.inj same).1 other
  next => rfl

private theorem isStrictBody_short (short : rest.length ≤ rLength.toNat + 1) :
    isStrictBody (rTag :: rLength :: rest) = false := by
  by_cases tagged : rTag = 0x02
  · subst tagged
    rw [isStrictBody]
    have left : (rest.drop rLength.toNat).length ≤ 1 := by
      rw [List.length_drop]
      omega
    match rest.drop rLength.toNat,left with
    | [],_ | [_],_ => simp
  · exact isStrictBody_tag tagged

private theorem isStrictBody_eq (split : rest.drop rLength.toNat = sTag :: sLength :: content) :
    isStrictBody (rTag :: rLength :: rest) =
      (decide (content.length = sLength.toNat + 1) &&
        ((rTag = 0x02 && isPositiveInteger (rest.take rLength.toNat)) &&
          (sTag = 0x02 && isPositiveInteger (content.take sLength.toNat)))) := by
  by_cases tagged : rTag = 0x02
  · subst tagged
    have lengths := congrArg List.length split
    rw [List.length_drop,List.length_cons,List.length_cons] at lengths
    have fits : rLength.toNat ≤ rest.length := by omega
    rw [isStrictBody,split]
    by_cases tagged' : sTag = 0x02
    · subst tagged'
      simp only [fits,decide_true,Bool.and_true,Bool.true_and]
      rw [Bool.and_comm (isPositiveInteger (content.take _)),Bool.and_left_comm]
    · simp [tagged']
  · rw [isStrictBody_tag tagged]
    simp [tagged]

private theorem areIntegers_split (tag size : UInt8) (small : (tag :: size :: rTag :: rLength :: rest).length ≤ 73)
    (opens : rest.drop rLength.toNat = sTag :: sLength :: content) :
    areIntegers (tag :: size :: rTag :: rLength :: rest) rLength.toNat =
      .ok (isStrictBody (rTag :: rLength :: rest)) := by
  have total : (tag :: size :: rTag :: rLength :: rest).length = rest.length + 4 := rfl
  have lengths := congrArg List.length opens
  rw [List.length_drop,List.length_cons,List.length_cons] at lengths
  have bound := rLength.toNat_lt
  have bound' := sLength.toNat_lt
  have split : tag :: size :: rTag :: rLength :: rest =
      (tag :: size :: rTag :: rLength :: rest.take rLength.toNat) ++ sTag :: sLength :: content := by
    rw [← opens,List.cons_append,List.cons_append,List.cons_append,List.cons_append,List.take_append_drop]
  have behind : (tag :: size :: rTag :: rLength :: rest.take rLength.toNat).length = rLength.toNat + 4 :=
    congrArg (· + 4) (List.length_take_of_le (by omega))
  have found : index (tag :: size :: rTag :: rLength :: rest) (5 + rLength.toNat) = .ok sLength := by
    rw [split]
    exact index_behind _ 1 rfl (by omega)
  rw [areIntegers,add_eq (by omega),ok_bind,total,if_neg (by omega),found,ok_bind]
  dsimp only
  rw [add_eq (by omega),ok_bind,add_eq (by omega),ok_bind,add_eq (by omega),ok_bind,isStrictBody_eq opens]
  by_cases filled : rLength.toNat + sLength.toNat + 7 = rest.length + 4
  · have filled' : content.length = sLength.toNat + 1 := by omega
    have first : isIntegerAt (tag :: size :: rTag :: rLength :: rest) 2 rLength.toNat =
        .ok (rTag = 0x02 && isPositiveInteger (rest.take rLength.toNat)) :=
      isIntegerAt_eq [tag,size] rfl rfl (by omega) small
    have second : isIntegerAt (tag :: size :: rTag :: rLength :: rest) (rLength.toNat + 4) sLength.toNat =
        .ok (sTag = 0x02 && isPositiveInteger (content.take sLength.toNat)) :=
      isIntegerAt_eq _ split behind.symm (by omega) small
    rw [if_neg (not_not_intro filled),first,ok_bind,second,decide_eq_true filled',Bool.true_and]
    cases (rTag = 0x02 && isPositiveInteger (rest.take rLength.toNat) : Bool) <;> rfl
  · have other : content.length ≠ sLength.toNat + 1 := by omega
    rw [if_pos filled,decide_eq_false other,Bool.false_and,pure_eq_ok]

private theorem areIntegers_eq (tag size : UInt8) (small : (tag :: size :: rTag :: rLength :: rest).length ≤ 73) :
    areIntegers (tag :: size :: rTag :: rLength :: rest) rLength.toNat =
      .ok (isStrictBody (rTag :: rLength :: rest)) := by
  by_cases long : rLength.toNat + 2 ≤ rest.length
  · have left : 2 ≤ (rest.drop rLength.toNat).length := by
      rw [List.length_drop]
      omega
    match opens : rest.drop rLength.toNat,left with
    | sTag :: sLength :: content,_ => exact areIntegers_split tag size small opens
  · have total : (tag :: size :: rTag :: rLength :: rest).length = rest.length + 4 := rfl
    have bound := rLength.toNat_lt
    rw [areIntegers,add_eq (by omega),ok_bind,total,if_pos (by omega),isStrictBody_short (by omega),
      pure_eq_ok]

end Body

theorem isStrictDER_tag {tag size : UInt8} {body : Bytes} (long : 9 ≤ (tag :: size :: body).length)
    (small : (tag :: size :: body).length ≤ 73) : Signature.isStrictDER (tag :: size :: body) =
      (tag = 0x30 && (size.toNat + 3 = (tag :: size :: body).length && isStrictBody body)) := by
  unfold Signature.isStrictDER
  rw [decide_eq_true long,decide_eq_true small,Bool.and_self,Bool.true_and]
  split
  next length body' same =>
    cases same
    rfl
  next other =>
    have tagged : tag ≠ 0x30 := fun same => other size body (same ▸ rfl)
    rw [decide_eq_false tagged,Bool.false_and]

theorem isStrictDER_eq (sig : Bytes) : isStrictDER sig = .ok (Signature.isStrictDER sig) := by
  unfold isStrictDER
  split
  next outside =>
    have refused : (9 ≤ sig.length && sig.length ≤ 73) = false := by
      simp only [Bool.and_eq_false_iff,decide_eq_false_iff_not]
      omega
    unfold Signature.isStrictDER
    rw [refused,Bool.false_and,pure_eq_ok]
  next inside =>
    match sig with
    | [] | [_] | [_,_] | [_,_,_] => simp at inside
    | tag :: size :: rTag :: rLength :: rest =>
      have first : index (tag :: size :: rTag :: rLength :: rest) 0 = .ok tag := rfl
      have second : index (tag :: size :: rTag :: rLength :: rest) 1 = .ok size := rfl
      have fourth : index (tag :: size :: rTag :: rLength :: rest) 3 = .ok rLength := rfl
      rw [first,ok_bind,second,ok_bind,fourth,ok_bind,sub_eq (by simp),ok_bind,
        areIntegers_eq tag size (by omega),isStrictDER_tag (by omega) (by omega)]
      split
      next other => rw [decide_eq_false other,Bool.false_and,pure_eq_ok]
      next tagged =>
        rw [decide_eq_true (not_not.mp tagged),Bool.true_and]
        split
        next other => rw [decide_eq_false (by omega),Bool.false_and,pure_eq_ok]
        next counted => rw [decide_eq_true (by omega),Bool.true_and]

private theorem length_of_isStrictDER {sig : Bytes} (strict : Signature.isStrictDER sig = true) :
    9 ≤ sig.length := by
  unfold Signature.isStrictDER at strict
  exact of_decide_eq_true (Bool.and_eq_true_iff.mp (Bool.and_eq_true_iff.mp strict).1).1

theorem checkEcdsa_eq (flags : Flags) (sig : Bytes) :
    checkEcdsa flags sig = .ok (Signature.checkEcdsa flags sig) := by
  rw [checkEcdsa,Signature.checkEcdsa,Signature.checkEcdsaBy,provided_eq (isStrictDER_eq sig),ok_bind]
  cases low : flags.has .lowS with
  | false =>
    simp only [Bool.or_false,Bool.false_eq_true,if_false,Bool.false_and,Bool.not_or,Bool.not_and,Bool.not_not]
    split <;> rfl
  | true =>
    -- The rule for the second number is for signatures in strict DER, which are not empty.
    simp only [Bool.or_true,Bool.true_or,Bool.not_true,Bool.false_or,Bool.true_and,if_true]
    split
    next => rfl
    next strict =>
      have long := length_of_isStrictDER (by simpa using strict)
      rw [sub_eq (by omega),ok_bind,slice_eq (Nat.zero_le _) (by omega),ok_bind,List.drop_zero,
        Nat.sub_zero,← List.dropLast_eq_take]
      cases isLowS sig.dropLast <;> rfl

theorem checkTransaction_eq (flags : Flags) (sig : Bytes) :
    checkTransaction flags sig = .ok (Signature.checkTransaction flags sig) := by
  rw [checkTransaction,Signature.checkTransaction,Signature.checkTransactionBy,checkEcdsa_eq]
  split
  next => rfl
  next => split <;> rfl

theorem checkData_eq (flags : Flags) (sig : Bytes) :
    checkData flags sig = .ok (Signature.checkData flags sig) := by
  rw [checkData,Signature.checkData,Signature.checkDataBy,checkEcdsa_eq]
  split <;> rfl

theorem isKey_eq (uncompressed : List UInt8) (bytes : Bytes) : isKey uncompressed bytes = .ok
    (match bytes with
      | [] => false
      | first :: _ => (bytes.length = 33 && (first = 0x02 || first = 0x03)) ||
        (bytes.length = 65 && uncompressed.contains first)) := by
  cases bytes with
  | nil => rfl
  | cons first rest =>
    have found : index (first :: rest) 0 = .ok first := rfl
    rw [isKey,found]
    dsimp only
    by_cases compressed : (first :: rest).length = 33
    · rw [if_pos compressed,compressed]
      simp
    · rw [if_neg compressed,decide_eq_false compressed,Bool.false_and,Bool.false_or]
      by_cases whole : (first :: rest).length = 65
      · rw [if_pos whole,whole]
        rfl
      · rw [if_neg whole,decide_eq_false whole,Bool.false_and,pure_eq_ok]

theorem checkKey_eq (flags : Flags) (key : Bytes) :
    checkKey flags key = .ok (Signature.checkKey flags key) := by
  have fine : isKey [0x04] key = .ok (isPublicKey key) := by
    rw [isKey_eq]
    cases key <;> simp [isPublicKey]
  rw [checkKey,Signature.checkKey,fine]
  cases flags.has .strictEnc with
  | false => rfl
  | true => cases isPublicKey key <;> rfl

theorem colorOfBytes_eq (bytes : Bytes) : colorOfBytes bytes = .ok (ColorId.ofBytes bytes) := by
  unfold colorOfBytes
  cases bytes with
  | nil => rfl
  | cons code payload =>
    rw [ColorId.ofBytes]
    split
    next other =>
      have other : payload.length ≠ 32 := fun same => other (congrArg (· + 1) same)
      rw [dif_neg other]
      rfl
    next same =>
      have same : payload.length = 32 := Nat.succ.inj (not_not.mp same)
      have found : index (code :: payload) 0 = .ok code := rfl
      have rest : sliceFrom (code :: payload) 1 = .ok payload := sliceFrom_append [code] payload
      rw [found,ok_bind,rest,dif_pos same]
      cases TokenType.ofByte? code with
      | none => rfl
      | some type =>
        dsimp only
        rw [ok_bind,dif_pos same]
        rfl

end ColorScript.Checked
