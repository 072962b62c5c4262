import ColorScript.Proofs.Deletion

/-! The places where bytes are split. Bytes are split apart from those in front exactly if these end with a
chunk that is whole, and the scan that deletion goes by finds the same first chunk as reading does. -/
namespace ColorScript
open Opcode

namespace Chunk

/-- Whether a chunk ends only because the bytes do: a push that is cut short, or an opcode without a name
and all that follows. -/
def isOpen : Chunk → Bool
  | .op _ => false
  | .push header payload => !(push header payload).isWellFormed
  | .raw _ => true

variable {chunk : Chunk}

private theorem Complete.isOpen_eq (complete : Complete chunk) : chunk.isOpen = false := by
  cases chunk with
  | op code => rfl
  | push header payload => rw [isOpen,complete.isWellFormed,Bool.not_true]
  | raw bytes => cases complete

private theorem Unfinished.isOpen_eq (unfinished : Unfinished chunk) : chunk.isOpen = true := by
  cases chunk with
  | op code => cases unfinished
  | push header payload => rw [isOpen,unfinished.not_isWellFormed rfl,Bool.not_false]
  | raw bytes => rfl

theorem Complete.isDefined {first : Opcode} {after rest : Bytes} (complete : Complete chunk)
    (opens : chunk.toBytes ++ after = first :: rest) : isDefined first = true := by
  cases complete with
  | op code defined above =>
    obtain ⟨rfl,_⟩ := List.cons.inj opens
    exact defined
  | push header payload announced =>
    cases header with
    | nil => cases announced
    | cons opcode lengthBytes =>
      obtain ⟨rfl,_⟩ := List.cons.inj opens
      exact isDefined_of_isPush _ announced.isPush

end Chunk

namespace Script

section Append

variable {first second script : Script}

theorem Canonical.append (complete : ∀ chunk ∈ first, chunk.Complete) (canonical : Canonical second) :
    Canonical (first ++ second) := by
  induction first with
  | nil => exact canonical
  | cons chunk rest ih =>
    obtain ⟨whole,others⟩ := List.forall_mem_cons.mp complete
    exact .cons chunk _ whole (ih others)

private theorem Canonical.complete_of_append (canonical : Canonical (first ++ second)) (more : second ≠ []) :
    ∀ chunk ∈ first, chunk.Complete := by
  induction first with
  | nil => exact nofun
  | cons chunk rest ih =>
    rw [List.cons_append] at canonical
    generalize followed : rest ++ second = chunks at canonical
    cases canonical with
    | last _ unfinished => exact absurd (List.append_eq_nil_iff.mp followed).2 more
    | cons _ _ complete canonical => exact List.forall_mem_cons.mpr ⟨complete,ih (followed ▸ canonical)⟩

-- Only the last chunk decides whether all are complete.
private theorem Canonical.complete_iff (canonical : Canonical script) :
    (∀ chunk ∈ script, chunk.Complete) ↔ ∀ chunk ∈ script.getLast?, chunk.isOpen = false := by
  constructor
  · intro complete chunk last
    exact (complete chunk (List.mem_of_getLast? last)).isOpen_eq
  · intro closed
    induction canonical with
    | nil => exact nofun
    | last chunk unfinished => cases unfinished.isOpen_eq.symm.trans (closed chunk rfl)
    | cons chunk rest complete canonical ih =>
      refine List.forall_mem_cons.mpr ⟨complete,ih fun other last => closed other ?_⟩
      rw [Option.mem_def] at last
      rw [List.getLast?_cons,last]
      rfl

end Append

private theorem parse_ne_nil {bytes : Bytes} (filled : bytes ≠ []) : parse bytes ≠ [] := by
  intro none
  have written := toBytes_parse bytes
  rw [none] at written
  exact filled written.symm

/-- Bytes are split as those in front and those behind are, unless there are some behind and the last chunk
of those in front is open to them. -/
theorem parse_append_iff (front behind : Bytes) :
    parse (front ++ behind) = parse front ++ parse behind ↔
      behind = [] ∨ ∀ chunk ∈ (parse front).getLast?, chunk.isOpen = false := by
  have written : toBytes (parse front ++ parse behind) = front ++ behind := by
    rw [toBytes,List.flatMap_append,← toBytes,← toBytes,toBytes_parse,toBytes_parse]
  rw [← written,parse_toBytes_iff,← (canonical_parse front).complete_iff]
  constructor
  · intro canonical
    by_cases none : behind = []
    · exact .inl none
    · exact .inr (canonical.complete_of_append (parse_ne_nil none))
  · rintro (rfl | complete)
    · rw [parse,List.append_nil]
      exact canonical_parse front
    · exact .append complete (canonical_parse behind)

/-- Length bytes that are cut short take what follows them, a whole push takes nothing. -/
theorem parse_append_iff_cut :
    parse ([0x51,0x4d,0x01] ++ [0x00,0x07]) ≠ parse [0x51,0x4d,0x01] ++ parse [0x00,0x07] ∧
      parse ([0x51,0x01,0x07] ++ [0x4d,0x01]) = parse [0x51,0x01,0x07] ++ parse [0x4d,0x01] :=
  ⟨(parse_append_iff _ _).not.mpr (by decide +kernel),(parse_append_iff _ _).mpr (by decide +kernel)⟩

/-- What bytes start with: nothing, a complete chunk, a push that is cut short, or an opcode without a
name. -/
inductive Start : Bytes → Prop
  | ended : Start []
  | whole (chunk : Chunk) (after : Bytes) (complete : chunk.Complete) : Start (chunk.toBytes ++ after)
  | cut (header payload : Bytes) (unfinished : (Chunk.push header payload).Unfinished) :
      Start (header ++ payload)
  | unnamed (first : Opcode) (rest : Bytes) (undefined : isDefined first = false) : Start (first :: rest)

theorem start (bytes : Bytes) : Start bytes := by
  cases bytes with
  | nil => exact .ended
  | cons first rest =>
    rw [← Chunk.split_toBytes_append first rest]
    rcases Chunk.split_complete_or first rest with complete | ⟨unfinished,finished⟩
    · exact .whole _ _ complete
    · rw [finished,List.append_nil]
      generalize (Chunk.split first rest).1 = chunk at unfinished
      cases unfinished with
      | payload header payload length announced short =>
        exact .cut _ _ (.payload header payload length announced short)
      | header header cut => exact .cut _ _ (.header header cut)
      | raw first rest undefined => exact .unnamed first rest undefined

private theorem operationLength?_unnamed {first : Opcode} (undefined : isDefined first = false) (rest : Bytes) :
    operationLength? (first :: rest) = some 1 := by
  refine operationLength?_above (UInt8.not_le.mp fun small => ?_) rest
  cases undefined.symm.trans (Chunk.isDefined_of_isPush first (decide_eq_true small))

theorem parse_of_operationLength? {first : Opcode} {rest : Bytes} {length : Nat}
    (scanned : operationLength? (first :: rest) = some length) :
    (isDefined first = true → ∃ chunk, parse (first :: rest) = chunk :: parse ((first :: rest).drop length) ∧
      chunk.size = length ∧
      ((∃ code, chunk = .op code) ∨ chunk.isPush = true ∧ chunk.isWellFormed = true)) ∧
    (isDefined first = false → length = 1 ∧ parse (first :: rest) = [.raw (first :: rest)]) := by
  generalize opens : first :: rest = bytes at scanned ⊢
  cases start bytes with
  | ended => cases opens
  | whole chunk after complete =>
    obtain rfl := Option.some.inj ((operationLength?_complete complete after).symm.trans scanned)
    constructor
    · intro _
      refine ⟨chunk,?_,(Chunk.length_toBytes chunk).symm,?_⟩
      · rw [List.drop_left,parse_complete_append complete]
      · cases chunk with
        | op code => exact .inl ⟨code,rfl⟩
        | push => exact .inr ⟨rfl,complete.isWellFormed⟩
        | raw => cases complete
    · intro unnamed
      cases unnamed.symm.trans (complete.isDefined opens.symm)
  | cut header payload unfinished =>
    cases (operationLength?_unfinished unfinished rfl).symm.trans scanned
  | unnamed first rest undefined =>
    obtain ⟨rfl,rfl⟩ := List.cons.inj opens
    obtain rfl := Option.some.inj ((operationLength?_unnamed undefined _).symm.trans scanned)
    constructor
    · intro named
      cases undefined.symm.trans named
    · intro _
      exact ⟨rfl,parse_unfinished (.raw _ _ undefined)⟩

private theorem operationLength?_eq_none_iff_parse {bytes : Bytes} :
    operationLength? bytes = none ↔ bytes = [] ∨
      ∃ chunk, parse bytes = [chunk] ∧ chunk.isPush = true ∧ chunk.isWellFormed = false := by
  cases start bytes with
  | ended => exact iff_of_true rfl (.inl rfl)
  | whole chunk after complete =>
    have found := operationLength?_complete complete after
    rw [found,parse_complete_append complete]
    refine iff_of_false (Option.some_ne_none _) ?_
    rintro (none | ⟨other,same,_,short⟩)
    · rw [none] at found
      cases found
    · obtain ⟨rfl,_⟩ := List.cons.inj same
      cases short.symm.trans complete.isWellFormed
  | cut header payload unfinished =>
    exact iff_of_true (operationLength?_unfinished unfinished rfl)
      (.inr ⟨_,parse_unfinished unfinished,rfl,unfinished.not_isWellFormed rfl⟩)
  | unnamed first rest undefined =>
    have read : parse (first :: rest) = [.raw (first :: rest)] := parse_unfinished (.raw _ _ undefined)
    rw [operationLength?_unnamed undefined,read]
    refine iff_of_false (Option.some_ne_none _) ?_
    rintro (none | ⟨chunk,same,push,_⟩)
    · cases none
    · cases same
      cases push

/-- The scan for the first operation and the reading of chunks agree. An operation with a name is the first
chunk, which is whole, and reading goes on behind it. An opcode without one is a single byte to the scan and
takes all bytes when they are read. The scan ends before bytes that are read as nothing but a push cut short. -/
theorem operationLength?_agrees_parse (bytes : Bytes) :
    (∀ first rest length, bytes = first :: rest → operationLength? bytes = some length →
      (isDefined first = true → ∃ chunk, parse bytes = chunk :: parse (bytes.drop length) ∧
        chunk.size = length ∧
        ((∃ code, chunk = .op code) ∨ chunk.isPush = true ∧ chunk.isWellFormed = true)) ∧
      (isDefined first = false → length = 1 ∧ parse bytes = [.raw bytes])) ∧
    (operationLength? bytes = none ↔ bytes = [] ∨
      ∃ chunk, parse bytes = [chunk] ∧ chunk.isPush = true ∧ chunk.isWellFormed = false) := by
  refine ⟨?_,operationLength?_eq_none_iff_parse⟩
  rintro first rest length rfl scanned
  exact parse_of_operationLength? scanned

/-- A push with a length byte, an opcode without a name behind it, and length bytes that are cut short. -/
theorem operationLength?_agrees_parse_tail :
    (∃ chunk, parse [0x4c,0x01,0xab,0xbd,0x76] = chunk :: parse [0xbd,0x76] ∧ chunk.size = 3) ∧
      parse [0xbd,0x76] = [.raw [0xbd,0x76]] ∧ operationLength? [0x4d,0x01] = none := by
  obtain ⟨chunk,read,size,_⟩ :=
    ((operationLength?_agrees_parse [0x4c,0x01,0xab,0xbd,0x76]).1 _ _ 3 rfl rfl).1 (by decide)
  have tail := ((operationLength?_agrees_parse [0xbd,0x76]).1 _ _ 1 rfl rfl).2 (by decide)
  have cut : ∃ chunk, parse [0x4d,0x01] = [chunk] ∧ chunk.isPush = true ∧ chunk.isWellFormed = false :=
    ⟨.push [0x4d,0x01] [],by decide +kernel,rfl,by decide⟩
  exact ⟨⟨chunk,read,size⟩,tail.2,(operationLength?_agrees_parse [0x4d,0x01]).2.mpr (.inr cut)⟩

end Script

end ColorScript
