import ColorScript.Proofs.Faultless.Number

/-! Script numbers as signs and magnitudes. Reading gives the integer that the bits stand for, the
shortest form of an integer is its only minimal one, and the length of that form tells how large the
integer is. -/
namespace ColorScript.Number

/-- The integer that bytes stand for as one little-endian number of which the highest bit is a sign. -/
def value (bytes : Bytes) : Int :=
  let sign := 2 ^ (8 * bytes.length - 1)
  if Bytes.toNat bytes < sign then Bytes.toNat bytes else (sign : Int) - Bytes.toNat bytes

private theorem toNat_signed (front : Bytes) (last : UInt8) : Bytes.toNat (front ++ [last]) =
    Bytes.toNat (front ++ [last &&& 0x7f]) + if topBit last then 256 ^ front.length * 128 else 0 := by
  have cleared : ∀ byte : UInt8, byte.toNat = (byte &&& 0x7f).toNat + if topBit byte then 128 else 0 :=
    forall_byte (by decide +kernel)
  have last_eq : Bytes.toNat [last] = Bytes.toNat [last &&& 0x7f] + if topBit last then 128 else 0 :=
    cleared last
  rw [Bytes.toNat_append,Bytes.toNat_append,last_eq,Nat.mul_add,Nat.add_assoc]
  split <;> rfl

private theorem toNat_padded (digits : Bytes) : Bytes.toNat (digits ++ [0x00]) = Bytes.toNat digits := by
  rw [Bytes.toNat_append]
  rfl

private theorem two_pow_sign (width : Nat) : 2 ^ (8 * (width + 1) - 1) = 256 ^ width * 128 := by
  have place : 8 * (width + 1) - 1 = 8 * width + 7 := by omega
  rw [place,Nat.pow_add,Nat.pow_mul]

private theorem value_append (front : Bytes) (last : UInt8) : value (front ++ [last]) =
    if topBit last then -(Bytes.toNat (front ++ [last &&& 0x7f]) : Int)
    else Bytes.toNat (front ++ [last &&& 0x7f]) := by
  have low : Bytes.toNat (front ++ [last &&& 0x7f]) < 256 ^ front.length * 128 := by
    have bound := @toNat_splitSign_lt (front ++ [last]) front.length (by simp)
    rwa [splitSign_append,Nat.mul_comm] at bound
  rw [value,List.length_append,List.length_singleton,two_pow_sign,toNat_signed]
  generalize Bytes.toNat (front ++ [last &&& 0x7f]) = magnitude at low ⊢
  generalize 256 ^ front.length * 128 = sign at low ⊢
  cases topBit last with
  | true =>
    have signed : ¬ magnitude + sign < sign := by omega
    simp only [if_true,if_neg signed]
    omega
  | false => simp only [Bool.false_eq_true,if_false,Nat.add_zero,if_pos low]

theorem natAbs_value (bytes : Bytes) : (value bytes).natAbs = Bytes.toNat (splitSign bytes).1 := by
  rcases List.eq_nil_or_concat bytes with rfl | ⟨front,last,rfl⟩
  · rfl
  · rw [List.concat_eq_append,value_append,splitSign_append]
    split
    next => exact Int.natAbs_neg _
    next => rfl

theorem decode_eq_value (bytes : Bytes) : decode bytes =
    if (value bytes).natAbs < 2 ^ 63 then .ok (value bytes) else .error (.numberOverflow bytes.length) := by
  rcases List.eq_nil_or_concat bytes with rfl | ⟨front,last,rfl⟩
  · rfl
  · rw [List.concat_eq_append,decode_append,value_append]
    cases topBit last with
    | true => simp only [if_true,Int.natAbs_neg,Int.natAbs_natCast]
    | false => simp only [Bool.false_eq_true,if_false,Int.natAbs_natCast]

/-- Bytes that do not end in a zero. -/
def IsTrimmed (digits : Bytes) : Prop := ∀ front, digits ≠ front ++ [0x00]

private theorem toNat_magnitudeBytes (n : Nat) : Bytes.toNat (magnitudeBytes n) = n := by
  fun_induction magnitudeBytes n with
  | case1 => rfl
  | case2 n positive ih =>
    rw [Bytes.toNat_cons,ih,UInt8.toNat_ofNat']
    omega

private theorem magnitudeBytes_trimmed (n : Nat) : IsTrimmed (magnitudeBytes n) := by
  fun_induction magnitudeBytes n with
  | case1 => exact fun front none => by simp at none
  | case2 n positive ih =>
    intro front same
    cases front with
    | nil =>
      obtain ⟨digit,rest⟩ := List.cons.inj same
      have small : n / 256 = 0 := by rw [← toNat_magnitudeBytes (n / 256),rest]; rfl
      have zero := congrArg UInt8.toNat digit
      rw [UInt8.toNat_ofNat'] at zero
      change n % 256 = 0 at zero
      omega
    | cons digit front => exact ih front (List.cons.inj same).2

theorem IsTrimmed.tail {byte : UInt8} {rest : Bytes} (trimmed : IsTrimmed (byte :: rest)) :
    IsTrimmed rest :=
  fun front same => trimmed (byte :: front) (by rw [same]; rfl)

private theorem IsTrimmed.toNat_ne_zero {digits : Bytes} (trimmed : IsTrimmed digits) (some : digits ≠ []) :
    Bytes.toNat digits ≠ 0 := by
  induction digits with
  | nil => exact absurd rfl some
  | cons byte rest ih =>
    rw [Bytes.toNat_cons]
    cases rest with
    | nil =>
      have weight : byte ≠ 0x00 := fun zero => trimmed [] (by rw [zero]; rfl)
      have weight : byte.toNat ≠ 0 := fun zero => weight (UInt8.toNat_inj.mp zero)
      omega
    | cons next rest =>
      have := ih trimmed.tail (List.cons_ne_nil _ _)
      omega

private theorem IsTrimmed.magnitudeBytes_toNat {digits : Bytes} (trimmed : IsTrimmed digits) :
    magnitudeBytes (Bytes.toNat digits) = digits := by
  induction digits with
  | nil => rw [Bytes.toNat_nil,magnitudeBytes,if_pos rfl]
  | cons byte rest ih =>
    have bound := byte.toNat_lt
    have positive := trimmed.toNat_ne_zero (List.cons_ne_nil _ _)
    have digit : UInt8.ofNat (Bytes.toNat (byte :: rest)) = byte := by
      apply UInt8.toNat_inj.mp
      rw [UInt8.toNat_ofNat',Bytes.toNat_cons]
      omega
    have higher : Bytes.toNat (byte :: rest) / 256 = Bytes.toNat rest := by
      rw [Bytes.toNat_cons]
      omega
    rw [magnitudeBytes,if_neg positive,digit,higher,ih trimmed.tail]

section Sign

variable {negative : Bool} {digits : Bytes}

private theorem low_eq (byte : UInt8) (low : topBit byte = false) :
    byte &&& 0x7f = byte ∧ topBit (byte ||| 0x80) = true ∧ (byte ||| 0x80) &&& 0x7f = byte := by
  revert byte
  exact forall_byte (by decide +kernel)

private theorem withSign_cleared (last : UInt8) : withSign (topBit last) [last &&& 0x7f] = [last] := by
  revert last
  exact forall_byte (by decide +kernel)

private theorem sign_eq (sign : UInt8) (empty : sign &&& 0x7f = 0x00) :
    (if topBit sign then 0x80 else 0x00) = sign := by
  revert sign
  exact forall_byte (by decide +kernel)

private theorem value_withSign (negative : Bool) (digits : Bytes) : value (withSign negative digits) =
    if negative then -(Bytes.toNat digits : Int) else Bytes.toNat digits := by
  rcases List.eq_nil_or_concat digits with rfl | ⟨front,last,rfl⟩
  · cases negative <;> rfl
  · rw [List.concat_eq_append,withSign_append,withSign]
    split
    next =>
      rw [List.append_cons,value_append]
      cases negative with
      | true => exact congrArg (fun magnitude : Nat => -(magnitude : Int)) (toNat_padded _)
      | false => exact congrArg Int.ofNat (toNat_padded _)
    next low =>
      obtain ⟨same,signed,cleared⟩ := low_eq last (Bool.eq_false_iff.mpr low)
      rw [value_append]
      cases negative with
      | true => simp only [if_true,signed,cleared]
      | false => simp only [Bool.false_eq_true,if_false,low,same]

theorem value_encode (n : Int) : value (encode n) = n := by
  rw [encode,value_withSign,toNat_magnitudeBytes]
  by_cases negative : n < 0
  · rw [if_pos (decide_eq_true negative)]
    omega
  · rw [if_neg (by simpa using negative)]
    omega

theorem decode_encode (n : Int) : decode (encode n) =
    if n.natAbs < 2 ^ 63 then .ok n else .error (.numberOverflow (encode n).length) := by
  rw [decode_eq_value,value_encode]

private theorem encode_signed (trimmed : IsTrimmed digits) (some : digits ≠ []) :
    encode (if negative then -(Bytes.toNat digits : Int) else Bytes.toNat digits) =
      withSign negative digits := by
  have weight := trimmed.toNat_ne_zero some
  cases negative with
  | true =>
    have below : -(Bytes.toNat digits : Int) < 0 := by omega
    simp only [if_true,encode,decide_eq_true below,Int.natAbs_neg,Int.natAbs_natCast,
      trimmed.magnitudeBytes_toNat]
  | false =>
    have above : ¬ (Bytes.toNat digits : Int) < 0 := by omega
    simp only [Bool.false_eq_true,if_false,encode,decide_eq_false above,Int.natAbs_natCast,
      trimmed.magnitudeBytes_toNat]

end Sign

/-- The forms that are shortest: the sign is in the last byte of the magnitude, or in a byte of its own
where that byte uses its top bit. -/
inductive Shortest : Bytes → Prop
  | zero : Shortest []
  | within (front : Bytes) (last : UInt8) (carries : last &&& 0x7f ≠ 0x00) : Shortest (front ++ [last])
  | behind (front : Bytes) (previous sign : UInt8) (full : topBit previous = true)
      (empty : sign &&& 0x7f = 0x00) : Shortest (front ++ [previous] ++ [sign])

-- Only the last two bytes decide.
private theorem isMinimal_append (front : Bytes) (previous last : UInt8) :
    isMinimal (front ++ [previous] ++ [last]) = (last &&& 0x7f ≠ 0x00 || topBit previous) := by
  induction front with
  | nil => rfl
  | cons byte front ih =>
    rw [← ih]
    rcases front with _ | ⟨next,_ | ⟨other,front⟩⟩ <;> rfl

theorem isMinimal_iff (bytes : Bytes) : isMinimal bytes = true ↔ Shortest bytes := by
  constructor
  · intro minimal
    rcases List.eq_nil_or_concat bytes with rfl | ⟨front,last,rfl⟩
    · exact .zero
    rw [List.concat_eq_append] at minimal ⊢
    by_cases carries : last &&& 0x7f = 0x00
    · rcases List.eq_nil_or_concat front with rfl | ⟨front,previous,rfl⟩
      · simp [isMinimal,carries] at minimal
      · rw [List.concat_eq_append,isMinimal_append] at minimal
        rw [List.concat_eq_append]
        exact .behind front previous last (by simpa [carries] using minimal) carries
    · exact .within front last carries
  · intro shortest
    cases shortest with
    | zero => rfl
    | within front last carries =>
      rcases List.eq_nil_or_concat front with rfl | ⟨front,previous,rfl⟩
      · simpa [isMinimal] using carries
      · rw [List.concat_eq_append,isMinimal_append]
        simp [carries]
    | behind front previous sign full empty =>
      rw [isMinimal_append]
      simp [full]

theorem shortest_encode (n : Int) : Shortest (encode n) := by
  have trimmed := magnitudeBytes_trimmed n.natAbs
  rw [encode]
  generalize decide (n < 0) = negative
  generalize magnitudeBytes n.natAbs = digits at trimmed ⊢
  rcases List.eq_nil_or_concat digits with rfl | ⟨front,last,rfl⟩
  · exact .zero
  rw [List.concat_eq_append] at trimmed ⊢
  have nonzero : last ≠ 0x00 := fun zero => trimmed front (by rw [zero])
  rw [withSign_append,withSign]
  split
  next full =>
    rw [List.append_cons]
    exact .behind front last _ full (by cases negative <;> rfl)
  next low =>
    obtain ⟨same,_,cleared⟩ := low_eq last (Bool.eq_false_iff.mpr low)
    refine .within front _ ?_
    cases negative with
    | true => rwa [if_pos rfl,cleared]
    | false => rwa [if_neg (Bool.false_ne_true),same]

private theorem Shortest.encode_value {bytes : Bytes} (shortest : Shortest bytes) : encode (value bytes) = bytes := by
  cases shortest with
  | zero =>
    rw [show value [] = 0 from rfl,encode,Int.natAbs_zero,magnitudeBytes,if_pos rfl]
    rfl
  | within front last carries =>
    have trimmed : IsTrimmed (front ++ [last &&& 0x7f]) := by
      intro other same
      exact carries (List.cons.inj (List.append_inj_right' same rfl)).1
    rw [value_append,encode_signed trimmed (by simp),withSign_append,withSign_cleared]
  | behind front previous sign full empty =>
    have trimmed : IsTrimmed (front ++ [previous]) := by
      intro other same
      rw [(List.cons.inj (List.append_inj_right' same rfl)).1] at full
      cases full
    rw [value_append,empty,toNat_padded,encode_signed trimmed (by simp),withSign_append,withSign,if_pos full,
      sign_eq sign empty,List.append_cons]

private theorem encode_eq_iff {bytes : Bytes} {n : Int} (read : decode bytes = .ok n) :
    encode n = bytes ↔ isMinimal bytes = true := by
  have valued : n = value bytes := by
    rw [decode_eq_value] at read
    split at read
    next => exact (Except.ok.inj read).symm
    next => cases read
  rw [isMinimal_iff]
  constructor
  · intro same
    rw [← same]
    exact shortest_encode n
  · intro shortest
    rw [valued,shortest.encode_value]

private theorem length_withSign_le_of_lt {digits : Bytes} {width : Nat}
    (short : digits.length ≤ width + 1) (bound : Bytes.toNat digits < 128 * 256 ^ width) (negative : Bool) :
    (withSign negative digits).length ≤ width + 1 := by
  fun_induction withSign negative digits generalizing width with
  | case1 => exact Nat.zero_le _
  | case2 last full =>
    -- A last byte that uses its top bit fills the first place of the bound.
    have large : ∀ byte, topBit byte = true → 128 ≤ byte.toNat := forall_byte (by decide +kernel)
    have large := large last full
    cases width with
    | zero =>
      simp only [Bytes.toNat_cons,Bytes.toNat_nil] at bound
      omega
    | succ width => simp
  | case3 => simp
  | case4 byte rest several ih =>
    cases width with
    | zero => exact absurd (List.length_eq_zero_iff.mp (by simpa using short)) several
    | succ width =>
      rw [Bytes.toNat_cons,Nat.pow_succ] at bound
      exact Nat.succ_le_succ (ih (Nat.le_of_succ_le_succ short) (by omega))

/-- The length of the shortest form tells how large a number is. -/
theorem length_encode_le_iff (n : Int) (width : Nat) :
    (encode n).length ≤ width + 1 ↔ n.natAbs < 128 * 256 ^ width := by
  constructor
  · intro short
    have same := natAbs_value (encode n)
    rw [value_encode] at same
    rw [same]
    exact toNat_splitSign_lt short
  · intro bound
    refine length_withSign_le_of_lt (length_magnitudeBytes_le ?_) ?_ _
    · rw [Nat.pow_succ]
      omega
    · rwa [toNat_magnitudeBytes]

private theorem operand_eq_ok_iff {width : Nat} (small : width < 8) {bytes : Bytes} {n : Int} :
    operand (width + 1) true bytes = .ok n ↔ bytes = encode n ∧ n.natAbs < 128 * 256 ^ width := by
  constructor
  · intro read
    obtain ⟨short,decoded⟩ := decode_of_operand read
    have minimal : isMinimal bytes = true := by
      unfold operand at read
      rw [if_neg (Nat.not_lt.mpr short)] at read
      cases minimal : isMinimal bytes with
      | true => rfl
      | false =>
        rw [minimal] at read
        cases read
    have same := (encode_eq_iff decoded).mpr minimal
    rw [← same] at short
    exact ⟨same.symm,(length_encode_le_iff n width).mp short⟩
  · rintro ⟨rfl,bound⟩
    have short := (length_encode_le_iff n width).mpr bound
    have minimal := (isMinimal_iff _).mpr (shortest_encode n)
    have weight : 128 * 256 ^ width ≤ 128 * 256 ^ 7 :=
      Nat.mul_le_mul_left _ (Nat.pow_le_pow_right (by decide) (Nat.le_of_lt_succ small))
    have fits : n.natAbs < 2 ^ 63 := Nat.lt_of_lt_of_le bound weight
    rw [operand,if_neg (Nat.not_lt.mpr short),minimal,if_neg (by decide),decode_encode,if_pos fits]

/-- Numbers are read and written as signs and magnitudes: every byte string has a value, which is read
unless its magnitude needs a 64th bit; every number has one minimal form, which reads back; and the
operands of a size are the minimal forms of the numbers that fit it. The bytes taken by their places and put
together in words give the same. -/
theorem signMagnitude_codec :
    (∀ bytes, decode bytes = if (value bytes).natAbs < 2 ^ 63 then .ok (value bytes)
      else .error (.numberOverflow bytes.length)) ∧
    (∀ n : Int, -2 ^ 63 ≤ n → n < 2 ^ 63 → isMinimal (encode n) = true ∧
      decode (encode n) = if n = -2 ^ 63 then .error (.numberOverflow 9) else .ok n) ∧
    (∀ bytes n, decode bytes = .ok n → (encode n = bytes ↔ isMinimal bytes = true)) ∧
    (∀ size, 1 ≤ size → size ≤ 8 →
      (∀ n, (encode n).length ≤ size ↔ n.natAbs ≤ 2 ^ (8 * size - 1) - 1) ∧
      ∀ bytes n, operand size true bytes = .ok n ↔
        bytes = encode n ∧ n.natAbs ≤ 2 ^ (8 * size - 1) - 1) ∧
    (∀ bytes, Checked.decode bytes = .ok (decode bytes)) ∧
    (∀ n, Checked.encode n = .ok (encode n)) ∧
    ∀ size minimal bytes, Checked.operand size minimal bytes = .ok (operand size minimal bytes) := by
  refine ⟨decode_eq_value,?_,fun _ _ => encode_eq_iff,?_,Checked.decode_eq,Checked.encode_eq,
    Checked.operand_eq⟩
  · intro n least most
    refine ⟨(isMinimal_iff _).mpr (shortest_encode n),?_⟩
    rw [decode_encode]
    split
    next fits => rw [if_neg (by omega)]
    next large =>
      have eight := (length_encode_le_iff n 7).not.mpr (by omega)
      have nine := (length_encode_le_iff n 8).mpr (by omega)
      rw [if_pos (by omega),show (encode n).length = 9 by omega]
  · intro size positive small
    obtain ⟨width,rfl⟩ := Nat.exists_eq_add_of_le' positive
    have least : 0 < 256 ^ width := Nat.pow_pos (by decide)
    have below (n : Int) : n.natAbs ≤ 2 ^ (8 * (width + 1) - 1) - 1 ↔ n.natAbs < 128 * 256 ^ width := by
      rw [two_pow_sign]
      omega
    refine ⟨fun n => ?_,fun bytes n => ?_⟩
    · rw [below,length_encode_le_iff]
    · rw [below,operand_eq_ok_iff small]

/-- The least number has a minimal form that cannot be read, and five has padded forms that can. -/
theorem signMagnitude_codec_extremes :
    decode (encode (-0x8000000000000000)) = .error (.numberOverflow 9) ∧
      ¬ encode 5 = [5,0,0,0,0,0,0,0,0,0] ∧ operand 8 true (encode 0x7fffffffffffffff) = .ok 0x7fffffffffffffff := by
  refine ⟨(signMagnitude_codec.2.1 _ (by decide) (by decide)).2,?_,?_⟩
  · exact (signMagnitude_codec.2.2.1 [5,0,0,0,0,0,0,0,0,0] 5 rfl).not.mpr (by decide)
  · exact ((signMagnitude_codec.2.2.2.1 8 (by decide) (by decide)).2 _ _).mpr ⟨rfl,by decide⟩

end ColorScript.Number
