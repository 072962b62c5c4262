import ColorScript.Proofs.StrictDER

/-! One rule for the encodings of all signatures. A signature for data is judged as the signature for a
transaction that it becomes with any defined hash type behind it. The rule for low numbers does not see
the hash type, whatever that rule is, and the strict form leaves it free. -/
namespace ColorScript.Signature

variable {isLow : Bytes → Bool} {flags : Flags} {sig r s : Bytes} {last hashType : UInt8}

private theorem StrictForm.retype (form : StrictForm (sig ++ [last]) r s hashType) (other : UInt8) :
    StrictForm (sig ++ [other]) r s other where
  least := by simpa only [List.length_append,List.length_singleton] using form.least
  most := by simpa only [List.length_append,List.length_singleton] using form.most
  layout := by
    have body := List.append_inj_left' form.layout rfl
    rw [List.length_append,List.length_singleton] at body ⊢
    rw [← body]
  first := form.first
  second := form.second

private theorem isStrictDER_append (sig : Bytes) (last other : UInt8) :
    isStrictDER (sig ++ [last]) = isStrictDER (sig ++ [other]) := by
  rw [Bool.eq_iff_iff,isStrictDER_iff,isStrictDER_iff]
  constructor
  · rintro ⟨r,s,hashType,form⟩
    exact ⟨r,s,other,form.retype other⟩
  · rintro ⟨r,s,hashType,form⟩
    exact ⟨r,s,last,form.retype last⟩

private theorem checkEcdsaBy_append (sig : Bytes) (last other : UInt8) :
    checkEcdsaBy isLow flags (sig ++ [last]) = checkEcdsaBy isLow flags (sig ++ [other]) := by
  rw [checkEcdsaBy,checkEcdsaBy,isStrictDER_append sig last other,List.dropLast_concat,
    List.dropLast_concat]

private theorem checkHashType_of_defined (defined : isHashType hashType = true) :
    checkHashType flags (sig ++ [hashType]) = .ok () := by
  rw [checkHashType,hasDefinedHashType,List.getLast?_concat,Option.any_some,defined]
  simp

private theorem checkTransactionBy_append (defined : isHashType hashType = true) :
    checkTransactionBy isLow flags (sig ++ [hashType]) =
      if dataScheme sig = .schnorr then .ok () else checkEcdsaBy isLow flags (sig ++ [0x01]) := by
  have filled : (sig ++ [hashType]).isEmpty = false := by simp
  have schemes : transactionScheme (sig ++ [hashType]) = dataScheme sig := by
    simp [transactionScheme,dataScheme]
  rw [checkTransactionBy,filled,schemes,checkHashType_of_defined defined,
    checkEcdsaBy_append sig hashType 0x01]
  cases checkEcdsaBy isLow flags (sig ++ [0x01]) <;> rfl

/-- Whatever rule there is for low numbers, a signature for data is under the rules for the transaction
signature that any defined hash type makes of it, so that all defined hash types are alike. -/
theorem encodings_oneRule :
    checkTransactionBy isLowS = checkTransaction ∧ checkDataBy isLowS = checkData ∧
    ∀ (isLow : Bytes → Bool) (flags : Flags) (sig : Bytes) (hashType : UInt8),
      isHashType hashType = true →
      (sig ≠ [] → checkDataBy isLow flags sig = checkTransactionBy isLow flags (sig ++ [hashType])) ∧
      ∀ other, isHashType other = true →
        checkTransactionBy isLow flags (sig ++ [hashType]) =
          checkTransactionBy isLow flags (sig ++ [other]) := by
  refine ⟨rfl,rfl,?_⟩
  intro isLow flags sig hashType defined
  constructor
  · intro filled
    have some : sig.isEmpty = false := by simpa using filled
    rw [checkTransactionBy_append defined,checkDataBy,some]
    simp
  · intro other defined'
    rw [checkTransactionBy_append defined,checkTransactionBy_append defined']

/-- A signature in the strict form, under a rule that takes no number for low. -/
theorem encodings_oneRule_refused :
    checkTransactionBy (fun _ => false) (Flags.ofList [.strictEnc,.lowS])
      ([0x30,0x06,0x02,0x01,0x01,0x02,0x01,0x01] ++ [0x83]) = .error .sigHighS := by
  have same := encodings_oneRule.2.2 (fun _ => false) (Flags.ofList [.strictEnc,.lowS])
    [0x30,0x06,0x02,0x01,0x01,0x02,0x01,0x01] 0x83 (by decide)
  rw [← same.1 (by decide)]
  decide

end ColorScript.Signature
