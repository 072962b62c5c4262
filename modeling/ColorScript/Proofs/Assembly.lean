import ColorScript.Proofs.Reassembly
import ColorScript.Script.Builder

/-! Texts read word by word. Two texts with a blank between them stand for the bytes of both, and words that
stand for pieces of a script are read as the script that is built of these pieces. -/
namespace ColorScript
open Text

namespace Chunk

open Opcode

private theorem complete_ofOpcode {code : Opcode} (named : (mnemonic? code).isSome = true)
    (apart : code ∉ [pushData1,pushData2,pushData4]) : (ofOpcode code).Complete := by
  have nameless : ∀ code, isDirectPush code = true → mnemonic? code = none := forall_byte (by decide +kernel)
  have pushes : ∀ code, Opcode.isPush code = true → isDirectPush code = false → code = 0x00 ∨
      code ∈ [pushData1,pushData2,pushData4] := forall_byte (by decide +kernel)
  rw [ofOpcode]
  split
  next push =>
    have other : isDirectPush code = false := by
      by_contra direct
      rw [nameless code (Bool.not_eq_false _ ▸ direct)] at named
      cases named
    obtain rfl := (pushes code push other).resolve_right apart
    exact .push _ _ (.direct 0x00 (by decide))
  next above =>
    have defined : isDefined code = true := by
      rw [isDefined,named,Bool.or_true]
    rw [if_pos defined]
    refine .op code defined (UInt8.not_le.mp fun small => above ?_)
    exact decide_eq_true small

private theorem complete_ofData? {data : Bytes} {chunk : Chunk} (pushed : ofData? data = .ok chunk) :
    chunk.Complete := by
  obtain ⟨fits,rfl⟩ := ofData?_eq_ok_iff.mp pushed
  exact complete_ofData fits

end Chunk

namespace Script

/-- The words that stand for a piece of a script: decimal numbers, names of opcodes, and bytes in hexadecimal
digits that are not all decimal. -/
inductive Denotes : List Char → Piece → Prop
  | natural (digits : List Char) (filled : digits ≠ []) (decimal : digits.all Decimal.isDigit = true)
      (small : Decimal.ofDigits digits ≤ 2 ^ 31 - 1) : Denotes digits (.int (Decimal.ofDigits digits))
  | negative (digits : List Char) (filled : digits ≠ []) (decimal : digits.all Decimal.isDigit = true)
      (small : Decimal.ofDigits digits ≤ 2 ^ 31 - 1) :
      Denotes ('-' :: digits) (.int (-(Decimal.ofDigits digits : Int)))
  | name (name : List Char) (code : Opcode) (named : Opcode.ofName? name = some code)
      (apart : code ∉ [Opcode.pushData1,Opcode.pushData2,Opcode.pushData4]) : Denotes name (.opcode code)
  | data (digits : List Char) (even : digits.length % 2 = 0) (lower : digits.all Hex.isLowerDigit = true)
      (letter : digits.any (!Decimal.isDigit ·) = true) : Denotes digits (.data (Hex.ofDigits digits))

section Words

variable {word : List Char} {piece : Piece} {n : Int}

private theorem assembleWord_of_toInt? (read : Decimal.toInt? word = some n) (bound : n.natAbs ≤ 2 ^ 31 - 1) :
    assembleWord word = .ok (Chunk.ofInt n).toBytes := by
  rw [assembleWord,wordInt?_of_small read (Nat.lt_succ_of_le bound)]

private theorem wordInt?_of_letter {payload : Bytes}
    (letter : (Hex.digits payload).any (!Decimal.isDigit ·) = true) : wordInt? (Hex.digits payload) = none := by
  have filled : payload ≠ [] := by
    rintro rfl
    cases letter
  refine Option.not_isSome_iff_eq_none.mp fun read => ?_
  rw [List.any_eq_not_all_not] at letter
  simp [(isSome_wordInt?_digits filled).mp read] at letter

/-- One case for each kind of words: what stands for a piece is a word, and it is read as the chunk that the
piece becomes. -/
theorem Denotes.read (denotes : Denotes word piece) : IsWord word ∧
    assembleWord word = piece.chunk?.map Chunk.toBytes ∧
    ∀ chunk, piece.chunk? = .ok chunk → chunk.Complete := by
  have visible {digits : List Char} (decimal : digits.all Decimal.isDigit = true) :
      digits.all isVisible = true :=
    List.all_eq_true.mpr fun c member => Decimal.isVisible_of_isDigit (List.all_eq_true.mp decimal c member)
  cases denotes with
  | natural _ filled decimal small =>
    have bound : (Decimal.ofDigits word : Int).natAbs < 2 ^ 31 := by omega
    refine ⟨.of_visible filled (visible decimal),?_,?_⟩
    · exact assembleWord_of_toInt? (Decimal.toInt?_of_digits filled decimal) small
    · rintro chunk ⟨⟩
      exact Chunk.complete_ofInt (Nat.lt_trans bound (by decide))
  | negative digits filled decimal small =>
    have bound : (-(Decimal.ofDigits digits : Int)).natAbs < 2 ^ 31 := by omega
    have read : Decimal.toInt? ('-' :: digits) = some (-(Decimal.ofDigits digits : Int)) := by
      rw [Decimal.toInt?,if_pos ⟨filled,decimal⟩]
    refine ⟨.of_visible (List.cons_ne_nil _ _) ?_,assembleWord_of_toInt? read (Nat.le_pred_of_lt bound),?_⟩
    · exact Bool.and_eq_true_iff.mpr ⟨rfl,visible decimal⟩
    · rintro chunk ⟨⟩
      exact Chunk.complete_ofInt (Nat.lt_trans bound (by decide))
  | name _ code named apart =>
    refine ⟨Opcode.isWord_of_ofName? named,?_,?_⟩
    · rw [assembleWord_named named,← Chunk.toBytes_ofOpcode]
      rfl
    · rintro chunk ⟨⟩
      exact Chunk.complete_ofOpcode (Opcode.isSome_mnemonic?_of_ofName? named) apart
  | data _ even lower letter =>
    have written := Hex.digits_ofDigits even lower
    have filled : word ≠ [] := by
      rintro rfl
      cases letter
    refine ⟨.of_visible filled ?_,?_,?_⟩
    · rw [← written]
      exact Hex.all_digits (by decide) _
    · have read := assembleWord_data (wordInt?_of_letter (written.symm ▸ letter))
      rwa [written] at read
    · exact fun chunk pushed => Chunk.complete_ofData? pushed

end Words

private theorem mapM_denotes {words : List (List Char)} {pieces : List Piece}
    (denotes : List.Forall₂ Denotes words pieces) :
    words.mapM assembleWord = (pieces.mapM Piece.chunk?).map (List.map Chunk.toBytes) ∧
      ∀ chunks, pieces.mapM Piece.chunk? = .ok chunks → ∀ chunk ∈ chunks, chunk.Complete := by
  induction denotes with
  | nil =>
    refine ⟨rfl,?_⟩
    rintro chunks ⟨⟩
    exact nofun
  | @cons word piece words pieces first others ih =>
    obtain ⟨_,read,complete⟩ := first.read
    rw [List.mapM_cons,List.mapM_cons,read,ih.1]
    cases becomes : piece.chunk? with
    | error error => exact ⟨rfl,nofun⟩
    | ok chunk =>
      cases become : pieces.mapM Piece.chunk? with
      | error error => exact ⟨rfl,nofun⟩
      | ok chunks =>
        refine ⟨rfl,?_⟩
        rintro whole ⟨⟩
        exact List.forall_mem_cons.mpr ⟨complete chunk becomes,ih.2 chunks become⟩

private theorem isWord_of_denotes {words : List (List Char)} {pieces : List Piece}
    (denotes : List.Forall₂ Denotes words pieces) : ∀ word ∈ words, IsWord word := by
  induction denotes with
  | nil => exact nofun
  | cons first others ih => exact List.forall_mem_cons.mpr ⟨first.read.1,ih⟩

private theorem ofAsm_eq_build {words : List (List Char)} {pieces : List Piece} {text : String}
    (denotes : List.Forall₂ Denotes words pieces) (spaced : Spaced words text.toList) :
    ofAsm text = build pieces := by
  obtain ⟨read,complete⟩ := mapM_denotes denotes
  have cut := spaced.words (isWord_of_denotes denotes)
  rw [build_eq]
  cases become : pieces.mapM Piece.chunk? with
  | error error =>
    rw [become] at read
    rw [ofAsm,assemble,cut,read]
    rfl
  | ok chunks =>
    rw [become] at read
    exact ofAsm_of_words cut read (complete chunks become)

private theorem assemble_append_blank (left right : List Char) :
    assemble (left ++ ' ' :: right) = (do
      let first ← assemble left
      let second ← assemble right
      return first ++ second) := by
  rw [assemble,words_append_blank (by decide),List.mapM_append,assemble,assemble]
  cases (words left).mapM assembleWord with
  | error error => rfl
  | ok first =>
    cases (words right).mapM assembleWord with
    | error error => rfl
    | ok second => exact congrArg Except.ok List.flatten_append

private theorem ofAsm_append_blank (left right : String) :
    ofAsm (left ++ " " ++ right) = (do
      let first ← assemble left.toList
      let second ← assemble right.toList
      return parse (first ++ second)) := by
  have text : (left ++ " " ++ right).toList = left.toList ++ ' ' :: right.toList := by
    rw [String.toList_append,String.toList_append,List.append_assoc]
    rfl
  rw [ofAsm,text,assemble_append_blank]
  cases assemble left.toList with
  | error error => rfl
  | ok first => cases assemble right.toList <;> rfl

/-- A text of two parts with a blank between them can be read if both parts can, and stands for the bytes of
both; if not, the first part that cannot be read is to blame. A text of numbers, names and hexadecimal digits
is read as the script that is built of what these stand for. Over machine words that are checked the integers
are the same, but for the least one, in any spelling. -/
theorem ofAsm_concat :
    (∀ left right : String,
      ((∃ script, ofAsm (left ++ " " ++ right) = .ok script) ↔
        (∃ first, ofAsm left = .ok first) ∧ ∃ second, ofAsm right = .ok second) ∧
      (∀ script first second, ofAsm (left ++ " " ++ right) = .ok script → ofAsm left = .ok first →
        ofAsm right = .ok second → script.toBytes = first.toBytes ++ second.toBytes) ∧
      (∀ error, ofAsm left = .error error → ofAsm (left ++ " " ++ right) = .error error) ∧
      ∀ first error, ofAsm left = .ok first → ofAsm right = .error error →
        ofAsm (left ++ " " ++ right) = .error error) ∧
    (∀ (words : List (List Char)) (pieces : List Piece) (text : String),
      List.Forall₂ Denotes words pieces → Spaced words text.toList → ofAsm text = build pieces) ∧
    ∀ word, Checked.wordInt? word = if Decimal.toInt64? word = some Int64.minValue then .error .overflow
      else .ok (wordInt? word) := by
  refine ⟨fun left right => ?_,fun words pieces text => ofAsm_eq_build,Checked.wordInt?_eq⟩
  rw [ofAsm_append_blank,ofAsm,ofAsm]
  cases assemble left.toList with
  | error error =>
    refine ⟨iff_of_false ?_ ?_,?_,fun _ => id,?_⟩
    · rintro ⟨script,⟨⟩⟩
    · rintro ⟨⟨first,⟨⟩⟩,_⟩
    · rintro script first second ⟨⟩
    · rintro first cause ⟨⟩
  | ok first =>
    cases assemble right.toList with
    | error error =>
      refine ⟨iff_of_false ?_ ?_,?_,?_,fun _ _ _ => id⟩
      · rintro ⟨script,⟨⟩⟩
      · rintro ⟨_,⟨second,⟨⟩⟩⟩
      · rintro script first second ⟨⟩
      · rintro cause ⟨⟩
    | ok second =>
      refine ⟨iff_of_true ⟨_,rfl⟩ ⟨⟨_,rfl⟩,⟨_,rfl⟩⟩,?_,?_,?_⟩
      · rintro script left' right' ⟨⟩ ⟨⟩ ⟨⟩
        rw [toBytes_parse,toBytes_parse,toBytes_parse]
      · rintro cause ⟨⟩
      · rintro first cause _ ⟨⟩

/-- Three words with unlike blanks, a push that is cut in two, a part that is no text of a script, and the least
integer with a zero in front. -/
theorem ofAsm_concat_mixed :
    ofAsm " -7\tOP_DUP\n00ff" = build [.int (-7),.opcode 0x76,.data [0x00,0xff]] ∧
    (∃ script, ofAsm ("0x4c" ++ " " ++ "0x0107") = .ok script ∧ script.toBytes = [0x4c] ++ [0x01,0x07]) ∧
    ofAsm ("0xf" ++ " " ++ "7") = .error (.invalidAsm "0xf") ∧
    ofAsm ("7" ++ " " ++ "0xf") = .error (.invalidAsm "0xf") ∧
    (∃ script, ofAsm ("-09223372036854775808" ++ " " ++ "7") = .ok script ∧
      script.toBytes = [9,0,0,0,0,0,0,0,0x80,0x80] ++ [0x57]) ∧
    Checked.wordInt? "-09223372036854775808".toList = .error .overflow := by
  have text : " -7\tOP_DUP\n00ff".toList =
      ' ' :: (['-','7'] ++ '\t' :: ("OP_DUP".toList ++ '\n' :: ['0','0','f','f'])) := by decide +kernel
  have head : ofAsm "0x4c" = .ok [.push [0x4c] []] := by decide +kernel
  have tail : ofAsm "0x0107" = .ok [.push [0x01] [0x07]] := by decide +kernel
  have fault : ofAsm "0xf" = .error (.invalidAsm "0xf") := by decide +kernel
  have seven : ofAsm "7" = .ok [.op 0x57] := by decide +kernel
  have least : ofAsm "-09223372036854775808" = .ok [.push [9] [0,0,0,0,0,0,0,0x80,0x80]] := by decide +kernel
  have spelled : Decimal.toInt64? "-09223372036854775808".toList = some Int64.minValue := by decide +kernel
  refine ⟨?_,?_,(ofAsm_concat.1 _ _).2.2.1 _ fault,(ofAsm_concat.1 _ _).2.2.2 _ _ seven fault,?_,
    (ofAsm_concat.2.2 _).trans (if_pos spelled)⟩
  · refine ofAsm_concat.2.1 [['-','7'],"OP_DUP".toList,['0','0','f','f']] _ _ ?_ ?_
    · exact .cons (.negative ['7'] (by decide) (by decide) (by decide))
        (.cons (.name _ 0x76 (Opcode.ofName?_name? rfl) (by decide))
          (.cons (.data ['0','0','f','f'] (by decide) (by decide) (by decide)) .nil))
    · rw [text]
      exact .blank ' ' _ _ (by decide) (.word _ '\t' _ _ (by decide) (.word _ '\n' _ _ (by decide) (.last _)))
  · obtain ⟨script,whole⟩ := (ofAsm_concat.1 "0x4c" "0x0107").1.mpr ⟨⟨_,head⟩,⟨_,tail⟩⟩
    exact ⟨script,whole,(ofAsm_concat.1 _ _).2.1 _ _ _ whole head tail⟩
  · obtain ⟨script,whole⟩ := (ofAsm_concat.1 "-09223372036854775808" "7").1.mpr ⟨⟨_,least⟩,⟨_,seven⟩⟩
    exact ⟨script,whole,(ofAsm_concat.1 _ _).2.1 _ _ _ whole least seven⟩

end Script

end ColorScript
