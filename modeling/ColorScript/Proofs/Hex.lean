import ColorScript.Text.Blank
import ColorScript.Text.Hex

/-! Hexadecimal texts read back as the bytes that they were written from. In lower case, every text of an
even length is the one that some bytes are written as. -/
namespace ColorScript.Text.Hex

private theorem utf8_digit (n : Nat) (small : n < 16) :
    String.utf8EncodeChar (digit n) = [UInt8.ofNat (digit n).toNat] ∧
      value? (UInt8.ofNat (digit n).toNat) = some (UInt8.ofNat n) := by
  have finite : ∀ n : Fin 16,
      String.utf8EncodeChar (digit n.val) = [UInt8.ofNat (digit n.val).toNat] ∧
        value? (UInt8.ofNat (digit n.val).toNat) = some (UInt8.ofNat n.val) := by
    decide +kernel
  exact finite ⟨n,small⟩

private theorem byte_halves (byte : UInt8) :
    16 * UInt8.ofNat (byte.toNat / 16) + UInt8.ofNat (byte.toNat % 16) = byte := by
  apply UInt8.toNat.inj
  have bound := byte.toNat_lt
  simp only [UInt8.toNat_add,UInt8.toNat_mul,UInt8.toNat_ofNat',UInt8.toNat_ofNat]
  omega

private theorem utf8_pair (byte : UInt8) :
    utf8 (pair byte) =
      [UInt8.ofNat (digit (byte.toNat / 16)).toNat,UInt8.ofNat (digit (byte.toNat % 16)).toNat] := by
  have bound := byte.toNat_lt
  have high := (utf8_digit (byte.toNat / 16) (by omega)).1
  have low := (utf8_digit (byte.toNat % 16) (by omega)).1
  simp only [utf8,pair,List.flatMap_cons,List.flatMap_nil,high,low]
  rfl

private theorem utf8_digits_cons (byte : UInt8) (bytes : Bytes) :
    utf8 (digits (byte :: bytes)) = utf8 (pair byte) ++ utf8 (digits bytes) := by
  simp only [utf8,digits,List.flatMap_cons,List.flatMap_append]

private theorem length_utf8_digits (bytes : Bytes) : (utf8 (digits bytes)).length = 2 * bytes.length := by
  induction bytes with
  | nil => rfl
  | cons byte bytes ih =>
    rw [utf8_digits_cons,utf8_pair,List.length_append,ih,List.length_cons]
    simp only [List.length_cons,List.length_nil]
    omega

theorem length_digits (bytes : Bytes) : (digits bytes).length = 2 * bytes.length := by
  induction bytes with
  | nil => rfl
  | cons byte bytes ih =>
    rw [digits,List.flatMap_cons,List.length_append,← digits,ih,List.length_cons]
    simp only [pair,List.length_cons,List.length_nil]
    omega

private theorem exists_of_mem_digits {bytes : Bytes} {c : Char} (member : c ∈ digits bytes) :
    ∃ n < 16, c = digit n := by
  obtain ⟨byte,_,half⟩ := List.mem_flatMap.mp member
  have bound := byte.toNat_lt
  rcases List.mem_cons.mp half with high | half
  · exact ⟨byte.toNat / 16,by omega,high⟩
  · exact ⟨byte.toNat % 16,by omega,List.mem_singleton.mp half⟩

theorem all_digits {holds : Char → Bool} (each : ∀ n : Fin 16, holds (digit n.val) = true) (bytes : Bytes) :
    (digits bytes).all holds = true := by
  rw [List.all_eq_true]
  intro c member
  obtain ⟨n,small,rfl⟩ := exists_of_mem_digits member
  exact each ⟨n,small⟩

theorem unsigned_digits (bytes : Bytes) : (digits bytes).head? ≠ some '-' := by
  intro signed
  have digit : (digits bytes).all (· ≠ '-') = true := all_digits (by decide) bytes
  obtain ⟨rest,same⟩ := List.head?_eq_some_iff.mp signed
  rw [same] at digit
  cases digit

private theorem decodePairs_digits (index : Nat) (bytes : Bytes) :
    decodePairs index (utf8 (digits bytes)) = .ok bytes := by
  induction bytes generalizing index with
  | nil => rfl
  | cons byte bytes ih =>
    have bound := byte.toNat_lt
    have high := (utf8_digit (byte.toNat / 16) (by omega)).2
    have low := (utf8_digit (byte.toNat % 16) (by omega)).2
    rw [utf8_digits_cons,utf8_pair]
    simp only [List.cons_append,List.nil_append,decodePairs,high,low,ih,byte_halves]
    rfl

theorem decode_encode (bytes : Bytes) : decode (utf8 (encode bytes).toList) = .ok bytes := by
  have even : ¬ (utf8 (digits bytes)).length % 2 = 1 := by
    rw [length_utf8_digits]
    omega
  rw [encode,String.toList_ofList,decode,if_neg even]
  exact decodePairs_digits 0 bytes

def isLowerDigit (c : Char) : Bool := Decimal.isDigit c || (97 ≤ c.toNat && c.toNat ≤ 102)

/-- The number that a decimal digit or a small letter stands for. -/
def value (c : Char) : Nat := if Decimal.isDigit c then c.toNat - 48 else c.toNat - 87

/-- The bytes whose digits stand in pairs. -/
def ofDigits : List Char → Bytes
  | high :: low :: rest => UInt8.ofNat (16 * value high + value low) :: ofDigits rest
  | _ => []

theorem digit_value {c : Char} (lower : isLowerDigit c = true) : value c < 16 ∧ digit (value c) = c := by
  simp only [isLowerDigit,Decimal.isDigit,Bool.or_eq_true,Bool.and_eq_true,decide_eq_true_eq] at lower
  have place : value c < 16 ∧ (if value c < 10 then 48 + value c else 87 + value c) = c.toNat := by
    simp only [value,Decimal.isDigit,Bool.and_eq_true,decide_eq_true_eq]
    grind
  rw [digit,place.2,Char.ofNat_toNat]
  exact ⟨place.1,rfl⟩

private theorem pair_value {high low : Char} (upper : isLowerDigit high = true) (lower : isLowerDigit low = true) :
    pair (UInt8.ofNat (16 * value high + value low)) = [high,low] := by
  obtain ⟨small,same⟩ := digit_value upper
  obtain ⟨small',same'⟩ := digit_value lower
  have byte : (UInt8.ofNat (16 * value high + value low)).toNat = 16 * value high + value low :=
    UInt8.toNat_ofNat_of_lt (show 16 * value high + value low < 256 by omega)
  have first : (16 * value high + value low) / 16 = value high := by omega
  have second : (16 * value high + value low) % 16 = value low := by omega
  rw [pair,byte,first,second,same,same']

theorem digits_ofDigits {text : List Char} (even : text.length % 2 = 0)
    (lower : text.all isLowerDigit = true) : digits (ofDigits text) = text := by
  fun_induction ofDigits text with
  | case1 high low rest ih =>
    simp only [List.all_cons,Bool.and_eq_true] at lower
    obtain ⟨first,second,others⟩ := lower
    have even' : rest.length % 2 = 0 := by
      rw [List.length_cons,List.length_cons] at even
      omega
    rw [digits,List.flatMap_cons,pair_value first second,← digits,ih even' others]
    rfl
  | case2 text short =>
    match text with
    | [] => rfl
    | [_] => cases even
    | high :: low :: rest => exact absurd rfl (short high low rest)

end ColorScript.Text.Hex
