import ColorScript.Proofs.Arithmetic
import ColorScript.Proofs.Decimal
import ColorScript.Proofs.Deletion
import ColorScript.Proofs.Faultless.Session
import ColorScript.Proofs.OpcodeNames
import ColorScript.Script.Asm

/-! Scripts read from the text that they are shown as. Every chunk is one word, and the word is read as a
chunk of its own: as the same operation, as the push of the number that it shows, or as the push of the
bytes that it shows. -/
namespace ColorScript
open Text

private theorem Opcode.natAbs_of_ofSmallInt? {n : Int} {code : Opcode} (small : ofSmallInt? n = some code) :
    n.natAbs ≤ 16 := by
  unfold ofSmallInt? at small
  grind

namespace Chunk

/-- The chunks that a text shows: operations with a name, and pushes. -/
inductive Shown : Chunk → Prop
  | op (code : Opcode) (defined : Opcode.isDefined code = true) (above : Opcode.pushData4 < code) :
    Shown (.op code)
  | push (header payload : Bytes) (fits : payload.length ≤ maxPayload) : Shown (.push header payload)

/-- The chunk that is read from the text of a chunk. -/
def reread : Chunk → Chunk
  | .push _ payload =>
    if payload.length ≤ Number.operandSize then .ofInt (Number.value payload)
    else match Script.wordInt? (Hex.digits payload) with
      | some n => .ofInt n
      | none => .ofData payload
  | chunk => chunk

/-- Whether the bytes of a push are shown as digits that are read as a number, with zeros in front. -/
def isMisread : Chunk → Bool
  | .push _ payload => Number.operandSize < payload.length &&
    (Script.wordInt? (Hex.digits payload)).isSome && (Hex.digits payload).head? = some '0'
  | _ => false

section Texts

variable {header payload : Bytes} {code : Opcode} {n : Int}

theorem decode_short (short : payload.length ≤ Number.operandSize) :
    Number.decode payload = .ok (Number.value payload) := by
  have small : (Number.value payload).natAbs < 2 ^ 63 :=
    Nat.lt_trans (Number.natAbs_value_lt short) (by decide)
  rw [Number.decode_eq_value,if_pos small]

private theorem text_short (short : payload.length ≤ Number.operandSize) :
    (push header payload).text = Decimal.text (Number.value payload) := by
  rw [text,payloadText,if_pos short,decode_short short]

private theorem text_long (long : Number.operandSize < payload.length) :
    (push header payload).text = Hex.encode payload := by
  rw [text,payloadText,if_neg (Nat.not_le.mpr long)]

theorem toBytes_ofOpcode (code : Opcode) : (ofOpcode code).toBytes = [code] := by
  unfold ofOpcode
  split
  · rfl
  · split <;> rfl

private theorem text_ofInt (bound : n.natAbs < 2 ^ 31) : (ofInt n).text = Decimal.text n := by
  have short : (Number.encode n).length ≤ 4 := (Number.length_encode_le_iff n 3).mpr bound
  rw [ofInt_eq_ofItem (Nat.lt_trans bound (by decide))]
  rcases ofItem_cases (Number.encode n) with plain | ⟨byte,single,own,same⟩
  · rw [plain,ofData,text_short short,Number.value_encode]
  · have each : ∀ byte, hasOwnOpcode byte = true →
        Opcode.smallInt? (ownOpcode byte) = some (Number.value [byte]) := forall_byte (by decide +kernel)
    rw [same,text,each byte own,← single,Number.value_encode]

private theorem text_op (defined : Opcode.isDefined code = true) (above : Opcode.pushData4 < code) :
    (∃ n, n.natAbs < 2 ^ 31 ∧ ofInt n = .op code ∧ (op code).text = Decimal.text n) ∨
      ∃ name, Opcode.name? code = some name ∧ (op code).text = name := by
  have each : ∀ code, Opcode.isDefined code = true → Opcode.pushData4 < code →
      (match Opcode.smallInt? code with
      | some n => n.natAbs < 2 ^ 31 && ofInt n = .op code
      | none => (Opcode.mnemonic? code).isSome) = true := forall_byte (by decide +kernel)
  have shown := each code defined above
  cases small : Opcode.smallInt? code with
  | some n =>
    rw [small] at shown
    obtain ⟨bound,same⟩ := Bool.and_eq_true_iff.mp shown
    exact .inl ⟨n,of_decide_eq_true bound,of_decide_eq_true same,by rw [text,small]⟩
  | none =>
    rw [small] at shown
    obtain ⟨mnemonic,named⟩ := Option.isSome_iff_exists.mp shown
    have name : Opcode.name? code = some ("OP_" ++ mnemonic) := by rw [Opcode.name?,named]; rfl
    exact .inr ⟨_,name,by rw [text,small,name]; rfl⟩

end Texts

end Chunk

namespace Script

section Words

variable {payload : Bytes} {code : Opcode} {n : Int}

private theorem wordInt?_eq_some_iff {word : List Char} : wordInt? word = some n ↔
    Decimal.toInt? word = some n ∧ (n.natAbs < 2 ^ 31 ∨ n = -2 ^ 63) := by
  rw [wordInt?,Option.map_eq_some_iff]
  constructor
  · rintro ⟨word64,read,rfl⟩
    obtain ⟨read,small⟩ := Option.filter_eq_some_iff.mp read
    exact ⟨Decimal.toInt64?_eq_some_iff.mp read,(Decimal.abs_le_iff word64).mp (of_decide_eq_true small)⟩
  · rintro ⟨number,small⟩
    have fits : (Int64.ofInt n).toInt = n := Int64.toInt_ofInt_of_le (by omega) (by omega)
    have read : Decimal.toInt64? word = some (Int64.ofInt n) :=
      Decimal.toInt64?_eq_some_iff.mpr (by rw [fits,number])
    have passes : (Int64.ofInt n).abs ≤ maxWordInt := (Decimal.abs_le_iff _).mpr (by rwa [fits])
    exact ⟨_,Option.filter_eq_some_iff.mpr ⟨read,decide_eq_true passes⟩,fits⟩

theorem wordInt?_of_small {word : List Char} (read : Decimal.toInt? word = some n) (bound : n.natAbs < 2 ^ 31) :
    wordInt? word = some n := wordInt?_eq_some_iff.mpr ⟨read,.inl bound⟩

/-- Digits have no sign, so that they do not spell the least integer. -/
theorem natAbs_of_wordInt? (read : wordInt? (Hex.digits payload) = some n) : n.natAbs < 2 ^ 31 := by
  obtain ⟨number,small⟩ := wordInt?_eq_some_iff.mp read
  rw [Decimal.toInt?_of_unsigned (Hex.unsigned_digits payload)] at number
  obtain ⟨_,natural⟩ := Option.ite_none_right_eq_some.mp number
  have := Option.some.inj natural
  omega

theorem isSome_wordInt?_digits (filled : payload ≠ []) :
    (wordInt? (Hex.digits payload)).isSome = true ↔
      (Hex.digits payload).all Decimal.isDigit = true ∧
        Decimal.ofDigits (Hex.digits payload) ≤ 2 ^ 31 - 1 := by
  have filled' : Hex.digits payload ≠ [] := by
    refine List.ne_nil_of_length_pos ?_
    rw [Hex.length_digits]
    have := List.length_pos_iff.mpr filled
    omega
  rw [Option.isSome_iff_exists]
  constructor
  · rintro ⟨n,read⟩
    have bound := natAbs_of_wordInt? read
    have number := (wordInt?_eq_some_iff.mp read).1
    rw [Decimal.toInt?_of_unsigned (Hex.unsigned_digits payload)] at number
    obtain ⟨⟨_,decimal⟩,natural⟩ := Option.ite_none_right_eq_some.mp number
    have := Option.some.inj natural
    exact ⟨decimal,by omega⟩
  · rintro ⟨decimal,small⟩
    exact ⟨_,wordInt?_of_small (Decimal.toInt?_of_digits filled' decimal) (by omega)⟩

private theorem assembleWord_ofInt (bound : n.natAbs < 2 ^ 31) :
    assembleWord (Decimal.ofInt n) = .ok (Chunk.ofInt n).toBytes := by
  rw [assembleWord,wordInt?_of_small (Decimal.toInt?_ofInt n) bound]

theorem assembleWord_named {word : List Char} (found : Opcode.ofName? word = some code) :
    assembleWord word = .ok [code] := by
  rw [assembleWord]
  cases read : wordInt? word with
  | some n =>
    have small := Opcode.ofSmallInt?_of_ofName? found (wordInt?_eq_some_iff.mp read).1
    simp only [Chunk.ofInt,small,Chunk.toBytes_ofOpcode]
  | none => simp only [Opcode.afterStart?_of_ofName? found,found]

private theorem assembleWord_number (read : wordInt? (Hex.digits payload) = some n) :
    assembleWord (Hex.digits payload) = .ok (Chunk.ofInt n).toBytes := by
  rw [assembleWord,read]

theorem assembleWord_data (unread : wordInt? (Hex.digits payload) = none) :
    assembleWord (Hex.digits payload) = (Chunk.ofData? payload).map Chunk.toBytes := by
  have hex : afterStart? ['0','x'] (Hex.digits payload) = none := by
    cases after : afterStart? ['0','x'] (Hex.digits payload) with
    | none => rfl
    | some rest =>
      have digit : (Hex.digits payload).all (· ≠ 'x') = true := Hex.all_digits (by decide) payload
      rw [afterStart?_eq_some.mp after] at digit
      cases digit
  have name : Opcode.ofName? (Hex.digits payload) = none := by
    cases found : Opcode.ofName? (Hex.digits payload) with
    | none => rfl
    | some code =>
      have small : (Hex.digits payload).all (!Opcode.isCapital ·) = true := Hex.all_digits (by decide) payload
      have capital : (Hex.digits payload).any Opcode.isCapital = false := by
        rw [List.any_eq_not_all_not,small]
        rfl
      obtain ⟨n,read⟩ := Opcode.toInt?_of_ofName? found capital
      have few := Opcode.natAbs_of_ofSmallInt? (Opcode.ofSmallInt?_of_ofName? found read)
      cases unread.symm.trans (wordInt?_of_small read (Nat.lt_of_le_of_lt few (by decide)))
  have bytes : wordBytes (Hex.digits payload) (Hex.digits payload) = .ok payload := by
    have read := Hex.decode_encode payload
    rw [Hex.encode,String.toList_ofList] at read
    rw [wordBytes,read]
  rw [assembleWord,unread]
  simp only [hex,name,bytes]
  rfl

end Words

end Script

namespace Chunk

variable {chunk : Chunk} {header payload : Bytes} {n : Int}

theorem reread_short (short : payload.length ≤ Number.operandSize) :
    (push header payload).reread = ofInt (Number.value payload) := if_pos short

theorem reread_number (long : Number.operandSize < payload.length)
    (read : Script.wordInt? (Hex.digits payload) = some n) : (push header payload).reread = ofInt n := by
  rw [reread,if_neg (Nat.not_le.mpr long),read]

theorem reread_data (long : Number.operandSize < payload.length)
    (unread : Script.wordInt? (Hex.digits payload) = none) :
    (push header payload).reread = ofData payload := by
  rw [reread,if_neg (Nat.not_le.mpr long),unread]

theorem Complete.shown (complete : Complete chunk) : Shown chunk := by
  cases complete with
  | op code defined above => exact .op code defined above
  | push header payload announced => exact .push header payload (Nat.le_of_lt_succ announced.length_lt)

/-- One case for each way to show a chunk: what is shown is a word, and the word is read as one complete
chunk. -/
theorem Shown.read (shown : Shown chunk) : IsWord chunk.text.toList ∧ chunk.reread.Complete ∧
    Script.assembleWord chunk.text.toList = .ok chunk.reread.toBytes := by
  cases shown with
  | op code defined above =>
    refine ⟨?_,.op code defined above,?_⟩
    · rcases text_op defined above with ⟨n,_,_,shown⟩ | ⟨name,named,rfl⟩
      · rw [shown,Decimal.text,String.toList_ofList]
        exact Decimal.isWord_ofInt n
      · exact Opcode.isWord_of_ofName? (Opcode.ofName?_name? named)
    · rcases text_op defined above with ⟨n,bound,same,shown⟩ | ⟨name,named,rfl⟩
      · rw [shown,Decimal.text,String.toList_ofList,Script.assembleWord_ofInt bound,same]
        rfl
      · exact Script.assembleWord_named (Opcode.ofName?_name? named)
  | push header payload fits =>
    by_cases short : payload.length ≤ Number.operandSize
    · have bound := Number.natAbs_value_lt short
      rw [text_short short,reread_short short,Decimal.text,String.toList_ofList]
      exact ⟨Decimal.isWord_ofInt _,complete_ofInt (Nat.lt_trans bound (by decide)),Script.assembleWord_ofInt bound⟩
    · have long := Nat.not_le.mp short
      have word : IsWord (Hex.digits payload) := by
        refine .of_visible (List.ne_nil_of_length_pos ?_) (Hex.all_digits (by decide) payload)
        rw [Hex.length_digits]
        omega
      rw [text_long long,Hex.encode,String.toList_ofList]
      cases read : Script.wordInt? (Hex.digits payload) with
      | some n =>
        rw [reread_number long read]
        have bound := Script.natAbs_of_wordInt? read
        exact ⟨word,complete_ofInt (Nat.lt_trans bound (by decide)),Script.assembleWord_number read⟩
      | none =>
        rw [reread_data long read]
        have pushed : ofData? payload = .ok (ofData payload) := if_pos fits
        refine ⟨word,complete_ofData fits,?_⟩
        rw [Script.assembleWord_data read,pushed]
        rfl

private theorem Shown.text_reread_iff (shown : Shown chunk) :
    chunk.reread.text = chunk.text ↔ chunk.isMisread = false := by
  cases shown with
  | op code defined above => exact iff_of_true rfl rfl
  | push header payload fits =>
    by_cases short : payload.length ≤ Number.operandSize
    · rw [reread_short short,text_ofInt (Number.natAbs_value_lt short),text_short short,isMisread,
        decide_eq_false (Nat.not_lt.mpr short)]
      exact iff_of_true rfl rfl
    · have long := Nat.not_le.mp short
      rw [text_long long,isMisread,decide_eq_true long,Bool.true_and]
      cases read : Script.wordInt? (Hex.digits payload) with
      | some n =>
        have number : Decimal.toInt? (Hex.digits payload) = some n := (Script.wordInt?_eq_some_iff.mp read).1
        have several : Hex.digits payload ≠ ['0'] := by
          intro single
          have length := Hex.length_digits payload
          rw [single,List.length_singleton] at length
          omega
        rw [reread_number long read,text_ofInt (Script.natAbs_of_wordInt? read),Decimal.text,Hex.encode,
          String.ofList_inj,Decimal.ofInt_eq_iff number (Hex.unsigned_digits payload),or_iff_left several]
        simp
      | none =>
        rw [reread_data long read,ofData,text_long long]
        exact iff_of_true rfl rfl

end Chunk

namespace Script

variable {script : Script}

theorem Canonical.shown (canonical : Canonical script) (named : IsNamed script) :
    ∀ chunk ∈ script, chunk.Shown := by
  induction canonical with
  | nil => exact nofun
  | last chunk unfinished =>
    rw [List.forall_mem_singleton]
    cases unfinished with
    | payload header payload length announced short =>
      exact .push header payload (Nat.le_of_lt_succ (Nat.lt_trans short announced.length_lt))
    | header header cut => exact .push header [] (Nat.zero_le _)
    | raw first rest undefined => exact absurd (List.mem_singleton_self _) (named _)
  | cons chunk rest complete canonical ih =>
    rw [List.forall_mem_cons]
    exact ⟨complete.shown,ih fun bytes member => named bytes (List.mem_cons_of_mem _ member)⟩

private theorem toList_text (script : Script) :
    script.text.toList = [' '].intercalate (script.map fun chunk => chunk.text.toList) := by
  rw [text,String.toList_intercalate,List.map_map]
  rfl

private theorem words_text (shown : ∀ chunk ∈ script, chunk.Shown) :
    words script.text.toList = script.map fun chunk => chunk.text.toList := by
  rw [toList_text]
  refine (spaced_intercalate _).words fun word member => ?_
  obtain ⟨chunk,inside,rfl⟩ := List.mem_map.mp member
  exact (shown chunk inside).read.1

private theorem complete_reread (shown : ∀ chunk ∈ script, chunk.Shown) :
    ∀ chunk ∈ script.map Chunk.reread, chunk.Complete := by
  intro chunk member
  obtain ⟨before,inside,rfl⟩ := List.mem_map.mp member
  exact (shown before inside).read.2.1

private theorem mapM_assembleWord (shown : ∀ chunk ∈ script, chunk.Shown) :
    (script.map fun chunk => chunk.text.toList).mapM assembleWord =
      .ok (script.map fun chunk => chunk.reread.toBytes) := by
  induction script with
  | nil => rfl
  | cons chunk rest ih =>
    obtain ⟨first,others⟩ := List.forall_mem_cons.mp shown
    rw [List.map_cons,List.mapM_cons,first.read.2.2,ih others]
    rfl

theorem ofAsm_of_words {text : String} {list : List (List Char)} {chunks : Script}
    (cut : words text.toList = list) (read : list.mapM assembleWord = .ok (chunks.map Chunk.toBytes))
    (complete : ∀ chunk ∈ chunks, chunk.Complete) : ofAsm text = .ok chunks := by
  rw [ofAsm,assemble,cut,read]
  change Except.ok (parse (chunks.map Chunk.toBytes).flatten) = _
  rw [← List.flatMap_def,← toBytes,(Canonical.of_complete complete).parse_toBytes]

/-- What is read from the text of a script: each chunk is read as one. -/
theorem ofAsm_text (shown : ∀ chunk ∈ script, chunk.Shown) :
    ofAsm script.text = .ok (script.map Chunk.reread) := by
  refine ofAsm_of_words (words_text shown) ?_ (complete_reread shown)
  rw [mapM_assembleWord shown,List.map_map]
  rfl

/-- The text of a script is the text of what is read from it, unless a chunk is misread. -/
theorem text_reread_iff (shown : ∀ chunk ∈ script, chunk.Shown) :
    text (script.map Chunk.reread) = script.text ↔ ∀ chunk ∈ script, chunk.isMisread = false := by
  have each : (∀ chunk ∈ script, chunk.reread.text.toList = chunk.text.toList) ↔
      ∀ chunk ∈ script, chunk.isMisread = false :=
    forall₂_congr fun chunk member => String.toList_inj.trans (shown chunk member).text_reread_iff
  have words' := words_text fun chunk member => (complete_reread shown chunk member).shown
  rw [List.map_map] at words'
  rw [← each,← List.map_inj_left]
  constructor
  · intro same
    rw [same,words_text shown] at words'
    exact words'.symm
  · intro same
    rw [← String.toList_inj,toList_text,toList_text,List.map_map]
    exact congrArg _ same

/-- The text of a script with names for all its opcodes can be written and read. What is read shows the
same text again exactly where no bytes are misread as a number. -/
theorem text_stable (bytes : Bytes) (named : IsNamed (parse bytes)) :
    Checked.scriptText (parse bytes) = .ok (parse bytes).text ∧
    ofAsm (parse bytes).text = .ok ((parse bytes).map Chunk.reread) ∧
    (text ((parse bytes).map Chunk.reread) = (parse bytes).text ↔
      ∀ chunk ∈ parse bytes, chunk.isMisread = false) := by
  have shown := (canonical_parse bytes).shown named
  exact ⟨Checked.scriptText_eq _,ofAsm_text shown,text_reread_iff shown⟩

/-- Five bytes that are read as a number of ten digits, which has no zeros in front. -/
theorem text_stable_tenDigits :
    ∃ script, ofAsm (parse [0x05,0x10,0x00,0x00,0x00,0x00,0x76]).text = .ok script ∧
      script ≠ parse [0x05,0x10,0x00,0x00,0x00,0x00,0x76] ∧
      script.text = (parse [0x05,0x10,0x00,0x00,0x00,0x00,0x76]).text := by
  have split : parse [0x05,0x10,0x00,0x00,0x00,0x00,0x76] =
      [.push [0x05] [0x10,0x00,0x00,0x00,0x00],.op 0x76] := by decide +kernel
  have named : IsNamed (parse [0x05,0x10,0x00,0x00,0x00,0x00,0x76]) := by
    rw [split]
    intro bytes member
    simp at member
  obtain ⟨_,read,same⟩ := text_stable _ named
  refine ⟨_,read,?_,same.mpr ?_⟩
  · rw [split]
    decide +kernel
  · rw [split]
    decide +kernel

/-- Five bytes with zeros in front are shown as ten digits and read as the number one. -/
theorem text_unstable :
    ¬ ∀ bytes, IsNamed (parse bytes) → ∃ script, ofAsm (parse bytes).text = .ok script ∧
      script.text = (parse bytes).text := by
  intro stable
  have split : parse [0x05,0x00,0x00,0x00,0x00,0x01] = [.push [0x05] [0x00,0x00,0x00,0x00,0x01]] := by
    decide +kernel
  have named : IsNamed (parse [0x05,0x00,0x00,0x00,0x00,0x01]) := by
    rw [split]
    intro bytes member
    simp at member
  have shown := (canonical_parse [0x05,0x00,0x00,0x00,0x00,0x01]).shown named
  obtain ⟨script,read,same⟩ := stable _ named
  rw [ofAsm_text shown] at read
  cases read
  have kept := (text_reread_iff shown).mp same
  rw [split,List.forall_mem_singleton] at kept
  exact absurd kept (by decide +kernel)

end Script

end ColorScript
