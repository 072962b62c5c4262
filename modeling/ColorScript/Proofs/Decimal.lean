import Mathlib.Algebra.Group.Int.Defs
import Mathlib.Algebra.Group.Nat.Defs
import Mathlib.Data.List.Induction
import ColorScript.Proofs.Words
import ColorScript.Text.Decimal

/-! Integers read back from their decimal texts. Of the texts that stand for a number, the one that is
written is the one without needless zeros in front. -/
namespace ColorScript.Text.Decimal

private theorem digit_small {n : Nat} (small : n < 10) :
    isDigit (digit n) = true ∧ value (digit n) = n ∧ (digit n = '0' → n = 0) := by
  have each : ∀ n : Fin 10,
      isDigit (digit n.val) = true ∧ value (digit n.val) = n.val ∧ (digit n.val = '0' → n.val = 0) := by
    decide
  exact each ⟨n,small⟩

theorem digit_value {c : Char} (decimal : isDigit c = true) : value c < 10 ∧ digit (value c) = c := by
  simp only [isDigit,Bool.and_eq_true,decide_eq_true_eq] at decimal
  have place : 48 + value c = c.toNat := by
    rw [value]
    omega
  refine ⟨by omega,?_⟩
  rw [digit,place,Char.ofNat_toNat]

theorem isVisible_of_isDigit {c : Char} (decimal : isDigit c = true) : isVisible c = true := by
  simp only [isDigit,isVisible,Bool.and_eq_true,decide_eq_true_eq] at decimal ⊢
  omega

private theorem ofDigits_concat (front : List Char) (c : Char) :
    ofDigits (front ++ [c]) = 10 * ofDigits front + value c := by
  rw [ofDigits,List.foldl_append]
  rfl

private theorem digits_zero : digits 0 = ['0'] := by
  rw [digits,if_pos (by decide)]
  rfl

private theorem digits_ne_nil (n : Nat) : digits n ≠ [] := by
  rw [digits]
  split
  · exact List.cons_ne_nil _ _
  · exact List.append_ne_nil_of_right_ne_nil _ (List.cons_ne_nil _ _)

theorem all_digits (n : Nat) : (digits n).all isDigit = true := by
  fun_induction digits n with
  | case1 n small => simp [digit_small small]
  | case2 n large ih => simp [ih,digit_small (Nat.mod_lt n (by decide))]

theorem ofDigits_digits (n : Nat) : ofDigits (digits n) = n := by
  fun_induction digits n with
  | case1 n small => simp [ofDigits,digit_small small]
  | case2 n large ih =>
    rw [ofDigits_concat,ih,(digit_small (Nat.mod_lt n (by decide))).2.1]
    omega

private theorem head?_digits {n : Nat} (lead : (digits n).head? = some '0') : n = 0 := by
  fun_induction digits n with
  | case1 n small => exact (digit_small small).2.2 (Option.some.inj lead)
  | case2 n large ih =>
    obtain ⟨first,others,same⟩ := List.exists_cons_of_ne_nil (digits_ne_nil (n / 10))
    rw [same] at lead ih
    have zero := ih lead
    omega

theorem digits_ofDigits {text : List Char} (decimal : text.all isDigit = true)
    (lead : text.head? ≠ some '0') (filled : text ≠ []) : digits (ofDigits text) = text := by
  induction text using List.reverseRecOn with
  | nil => exact absurd rfl filled
  | append_singleton front c ih =>
    rw [List.all_append,Bool.and_eq_true,List.all_cons,List.all_nil,Bool.and_true] at decimal
    obtain ⟨small,same⟩ := digit_value decimal.2
    rw [ofDigits_concat]
    cases front with
    | nil =>
      rw [digits,ofDigits,List.foldl_nil,if_pos (by omega),Nat.mul_zero,Nat.zero_add,same]
      rfl
    | cons first others =>
      have written := ih decimal.1 (by simpa using lead) (List.cons_ne_nil _ _)
      have positive : ofDigits (first :: others) ≠ 0 := by
        intro zero
        rw [zero,digits_zero] at written
        rw [← written] at lead
        exact lead rfl
      rw [digits,if_neg (by omega)]
      have high : (10 * ofDigits (first :: others) + value c) / 10 = ofDigits (first :: others) := by omega
      have low : (10 * ofDigits (first :: others) + value c) % 10 = value c := by omega
      rw [high,low,written,same]

theorem toInt?_of_digits {text : List Char} (filled : text ≠ []) (decimal : text.all isDigit = true) :
    toInt? text = some (ofDigits text : Int) := by
  unfold toInt?
  split
  next => cases decimal
  next => rw [if_pos ⟨filled,decimal⟩]

theorem toInt?_ofInt (n : Int) : toInt? (ofInt n) = some n := by
  cases n with
  | ofNat n =>
    rw [ofInt,toInt?_of_digits (digits_ne_nil n) (all_digits n),ofDigits_digits]
    rfl
  | negSucc n =>
    rw [ofInt,toInt?,if_pos ⟨digits_ne_nil _,all_digits _⟩,ofDigits_digits]
    rfl

theorem isWord_ofInt (n : Int) : IsWord (ofInt n) := by
  have visible (n : Nat) : (digits n).all isVisible = true :=
    List.all_eq_true.mpr fun c member => isVisible_of_isDigit (List.all_eq_true.mp (all_digits n) c member)
  cases n with
  | ofNat n => exact .of_visible (digits_ne_nil n) (visible n)
  | negSucc n => exact .of_visible (List.cons_ne_nil _ _) (Bool.and_eq_true_iff.mpr ⟨rfl,visible (n + 1)⟩)

theorem toInt?_of_unsigned {text : List Char} (unsigned : text.head? ≠ some '-') :
    toInt? text = if text ≠ [] ∧ text.all isDigit then some (ofDigits text : Int) else none := by
  unfold toInt?
  split
  next => exact absurd rfl unsigned
  next => rfl

theorem all_of_toInt? {text : List Char} {n : Int} (read : toInt? text = some n) :
    ∀ c ∈ text, c = '-' ∨ isDigit c = true := by
  have decimal {rest : List Char} (held : rest.all isDigit = true) : ∀ c ∈ rest, c = '-' ∨ isDigit c = true :=
    fun c member => .inr (List.all_eq_true.mp held c member)
  unfold toInt? at read
  split at read
  next rest =>
    split at read
    next held => exact List.forall_mem_cons.mpr ⟨.inl rfl,decimal held.2⟩
    next => cases read
  next =>
    split at read
    next held => exact decimal held.2
    next => cases read

theorem toInt64?_eq_some_iff {text : List Char} {n : Int64} :
    toInt64? text = some n ↔ toInt? text = some n.toInt := by
  rw [toInt64?]
  constructor
  · intro read
    obtain ⟨m,number,read⟩ := Option.bind_eq_some_iff.mp read
    obtain ⟨⟨least,most⟩,same⟩ := Option.ite_none_right_eq_some.mp read
    rw [← Option.some.inj same,Int64.toInt_ofInt_of_le least (Int.lt_add_one_of_le most)]
    exact number
  · intro number
    rw [number]
    exact (if_pos ⟨n.minValue_le_toInt,Int.le_of_lt_add_one n.toInt_lt⟩).trans (congrArg some n.ofInt_toInt)

/-- The least integer is its own absolute value. -/
theorem abs_le_iff (n : Int64) : n.abs ≤ 0x7fffffff ↔ n.toInt.natAbs < 2 ^ 31 ∨ n.toInt = -2 ^ 63 := by
  have own : n.toBitVec = BitVec.intMin 64 ↔ n.toInt = -2 ^ 63 := by
    rw [← BitVec.toInt_inj]
    rfl
  have size : n.abs.toInt = if n.toBitVec = BitVec.intMin 64 then -2 ^ 63 else (n.toInt.natAbs : Int) :=
    BitVec.toInt_abs_eq_natAbs
  have limit : (0x7fffffff : Int64).toInt = 2 ^ 31 - 1 := by decide
  rw [Int64.le_iff_toInt_le,size,limit,if_congr own rfl rfl]
  split <;> omega
/-- A text without a sign that stands for a number is how the number is written unless it has a needless
zero in front. -/
theorem ofInt_eq_iff {text : List Char} {n : Int} (read : toInt? text = some n)
    (unsigned : text.head? ≠ some '-') : ofInt n = text ↔ text.head? ≠ some '0' ∨ text = ['0'] := by
  rw [toInt?_of_unsigned unsigned,Option.ite_none_right_eq_some,Option.some.injEq] at read
  obtain ⟨⟨filled,decimal⟩,rfl⟩ := read
  change digits (ofDigits text) = text ↔ _
  constructor
  · intro same
    by_cases lead : text.head? = some '0'
    · have zero := head?_digits (same.symm ▸ lead)
      rw [zero,digits_zero] at same
      exact .inr same.symm
    · exact .inl lead
  · rintro (lead | rfl)
    · exact digits_ofDigits decimal lead filled
    · exact digits_zero

end ColorScript.Text.Decimal
