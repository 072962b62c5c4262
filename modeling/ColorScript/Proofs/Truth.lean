import ColorScript.Proofs.NumberCodec

/-! Truth as a number. Items count as true exactly if the integer that they stand for is not zero, whether
or not it is small enough to be read. -/
namespace ColorScript.Number

private theorem isTrue_iff_toNat (bytes : Bytes) :
    isTrue bytes = true ↔ Bytes.toNat (splitSign bytes).1 ≠ 0 := by
  fun_induction splitSign bytes with
  | case1 => simp [isTrue]
  | case2 last =>
    revert last
    exact forall_byte (by decide +kernel)
  | case3 byte rest several ih =>
    have weight : byte = 0x00 ↔ byte.toNat = 0 := UInt8.toNat_inj.symm
    rw [isTrue,Bool.or_eq_true,ih,decide_eq_true_iff,Bytes.toNat_cons,ne_eq,weight]
    · omega
    · exact several

theorem isTrue_eq_value (bytes : Bytes) : isTrue bytes = decide (value bytes ≠ 0) := by
  rw [Bool.eq_iff_iff,isTrue_iff_toNat,← natAbs_value,decide_eq_true_iff]
  exact not_congr Int.natAbs_eq_zero

private theorem isTrue_of_decode {bytes : Bytes} {n : Int} (read : decode bytes = .ok n) :
    isTrue bytes = decide (n ≠ 0) := by
  rw [decode_eq_value] at read
  split at read
  next => rw [isTrue_eq_value,Except.ok.inj read]
  next => cases read

private theorem isTrue_of_overflow {bytes : Bytes} {error : CodecError} (refused : decode bytes = .error error) :
    isTrue bytes = true := by
  rw [decode_eq_value] at refused
  split at refused
  next => cases refused
  next large =>
    rw [isTrue_eq_value,decide_eq_true_iff]
    rintro zero
    exact large (by rw [zero]; decide)

/-- Exactly the items that are read as zero count as false, so that those that cannot be read count as true,
and a number counts as true in its shortest form exactly if it is not zero. -/
theorem truth_nonzero :
    (∀ bytes, isTrue bytes = false ↔ decode bytes = .ok 0) ∧
    (∀ bytes error, decode bytes = .error error → isTrue bytes = true) ∧
    ∀ n : Int, isTrue (encode n) = decide (n ≠ 0) := by
  refine ⟨fun bytes => ?_,fun _ _ => isTrue_of_overflow,fun n => ?_⟩
  · cases read : decode bytes with
    | ok n => simp [isTrue_of_decode read]
    | error error => simp [isTrue_of_overflow read]
  · rw [isTrue_eq_value,value_encode]

/-- Three forms of a negative zero are false. The least number is true, as are bytes beyond all numbers. -/
theorem truth_nonzero_extremes :
    isTrue [0x80] = false ∧ isTrue [0x00,0x00,0x80] = false ∧ isTrue (List.replicate 20 0x00 ++ [0x80]) = false ∧
      isTrue (encode (-0x8000000000000000)) = true ∧
      decode (List.replicate 8 0x00 ++ [0x01]) = .error (.numberOverflow 9) ∧
      isTrue (List.replicate 8 0x00 ++ [0x01]) = true := by
  obtain ⟨zero,overflow,shortest⟩ := truth_nonzero
  have refused : decode (List.replicate 8 0x00 ++ [0x01]) = .error (.numberOverflow 9) := by decide +kernel
  exact ⟨(zero _).mpr rfl,(zero _).mpr rfl,(zero _).mpr (by decide +kernel),
    (shortest _).trans (by decide),refused,overflow _ _ refused⟩

end ColorScript.Number
