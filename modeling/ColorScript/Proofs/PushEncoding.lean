import ColorScript.Proofs.PushOnly
import ColorScript.Proofs.ShortestPush
import ColorScript.Proofs.WellFormed

/-! Scripts of pushes only, and the items that they leave. Each item has one shortest chunk, and
where pushes must be minimal there is no other, so that the items tell the bytes. -/
namespace ColorScript
open Opcode

/-- The shortest script that pushes items, the first one first. -/
def Script.ofItems (items : List Bytes) : Script := items.map Chunk.ofItem

namespace Chunk

/-- The chunks that carry an item: the pushes of it, and the opcode for a byte that has one. -/
inductive Carries : Chunk → Bytes → Prop
  | push (header item : Bytes) (announced : Header header item.length) : Carries (.push header item) item
  | own (byte : UInt8) (own : hasOwnOpcode byte = true) : Carries (.op (ownOpcode byte)) [byte]

variable {chunk : Chunk} {item : Bytes}

theorem Carries.complete (carries : chunk.Carries item) : chunk.Complete := by
  cases carries with
  | push header item announced => exact .push header item announced
  | own byte own => exact .op _ (isDefined_ownOpcode own) (ownOpcode_range own).1

theorem carries_ofData (bound : item.length ≤ maxPayload) : (ofData item).Carries item :=
  .push _ item (header_shortest bound)

theorem carries_ofItem (bound : item.length ≤ maxPayload) : (ofItem item).Carries item := by
  rcases ofItem_cases item with plain | ⟨byte,rfl,own,same⟩
  · rw [plain]
    exact carries_ofData bound
  · rw [same]
    exact .own byte own

end Chunk

private theorem Script.carries_ofItems {items : List Bytes}
    (short : ∀ item ∈ items, item.length ≤ Chunk.maxPayload) :
    List.Forall₂ Chunk.Carries (ofItems items) items := by
  induction items with
  | nil => exact .nil
  | cons item items ih =>
    obtain ⟨first,others⟩ := List.forall_mem_cons.mp short
    exact .cons (Chunk.carries_ofItem first) (ih others)

namespace Operation

private theorem encode_of_pushInt {opcode : Opcode} {n : Int} (above : pushData4 < opcode)
    (pushes : ofOpcode opcode = .pushInt n) :
    ∃ byte, Number.encode n = [byte] ∧ Chunk.hasOwnOpcode byte = true ∧
      Chunk.ownOpcode byte = opcode := by
  have each : ∀ opcode, pushData4 < opcode →
      (match ofOpcode opcode with
      | .pushInt n => (Number.encode n).length = 1 && (Number.encode n).all fun byte =>
        Chunk.hasOwnOpcode byte && Chunk.ownOpcode byte = opcode
      | _ => true) = true := forall_byte (by decide +kernel)
  have found := each opcode above
  rw [pushes] at found
  obtain ⟨single,own⟩ := Bool.and_eq_true_iff.mp found
  obtain ⟨byte,encoded⟩ := List.length_eq_one_iff.mp (of_decide_eq_true single)
  rw [encoded] at own ⊢
  simp only [List.all_cons,List.all_nil,Bool.and_true,Bool.and_eq_true,decide_eq_true_eq] at own
  exact ⟨byte,rfl,own⟩

private theorem ofOpcode_ownOpcode {byte : UInt8} (own : Chunk.hasOwnOpcode byte = true) :
    ∃ n, ofOpcode (Chunk.ownOpcode byte) = .pushInt n ∧ Number.encode n = [byte] := by
  have each : ∀ byte, Chunk.hasOwnOpcode byte = true →
      (match ofOpcode (Chunk.ownOpcode byte) with
      | .pushInt n => decide (Number.encode n = [byte])
      | _ => false) = true := forall_byte (by decide +kernel)
  have found := each byte own
  split at found
  next n pushes => exact ⟨n,pushes,of_decide_eq_true found⟩
  next => cases found

end Operation

private theorem Opcode.isDisabled_of_small {opcode : Opcode} (small : opcode ≤ sixteen) :
    isDisabled opcode = false := by
  have each : ∀ opcode, opcode ≤ sixteen → isDisabled opcode = false := forall_byte (by decide +kernel)
  exact each opcode small

namespace Machine

variable {ctx : Context} {before after : State} {place : Nat} {chunk : Chunk} {chunks : List Chunk}
  {done : Unit}

private theorem step_small {code : Opcode} (small : code ≤ sixteen) (executing : before.executing = true) :
    step ctx place (.op code) before = execute ctx place (Operation.ofOpcode code) before := by
  have free : Chunk.isCounted (.op code) = false := by
    simp [Chunk.isCounted,Chunk.isPush,Chunk.opcode,UInt8.not_lt.mpr small]
  have away {other : Opcode} (large : sixteen < other) : code ≠ other := by
    rintro rfl
    exact UInt8.not_lt.mpr small large
  have fits : Chunk.refusal? ctx.flags (.op code) = none := by
    rw [Chunk.refusal?_eq_none_iff]
    constructor
    · intro payload impossible
      cases impossible
    · intro _
      exact ⟨Opcode.isDisabled_of_small small,away (by decide),away (by decide),fun _ =>
        away (by decide)⟩
  have skipped : skip ctx (.op code) before = .ok () before := by
    rw [skip,free,fits]
    rfl
  have reached : before.reaches code = true := by
    rw [State.reaches,executing,Bool.true_or]
  rw [step_eq,bind_of_success skipped,effect_operation ctx place rfl,get_bind_apply]
  exact congrFun (if_pos reached) before

private theorem advance_small_success_iff {code : Opcode} (small : code ≤ sixteen)
    (outside : before.flow = []) :
    advance ctx place (.op code) before = .ok done after ↔
      execute ctx place (Operation.ofOpcode code) before = .ok () after ∧
        after.stack.length + after.alt.length ≤ maxItems := by
  rw [advance_success_iff,step_small small (State.executing_of_outside outside)]

private theorem step_carries {item : Bytes} (carries : chunk.Carries item) (short : item.length ≤ maxItem)
    (minimal : ctx.flags.has .minimalData = true → chunk.isMinimal = true)
    (executing : before.executing = true) :
    step ctx place chunk before = .ok () { before with stack := item :: before.stack } := by
  cases carries with
  | push header item announced =>
    have whole := (Chunk.Complete.push header item announced).isWellFormed
    exact (step_push_success_iff executing).mpr ⟨short,minimal,whole,rfl⟩
  | own byte own =>
    obtain ⟨n,pushes,encoded⟩ := Operation.ofOpcode_ownOpcode own
    rw [step_small (Chunk.ownOpcode_range own).2 executing,pushes,execute,encoded]
    rfl

theorem step_ofItem {item : Bytes} (short : item.length ≤ maxItem) (executing : before.executing = true) :
    step ctx place (Chunk.ofItem item) before = .ok () { before with stack := item :: before.stack } :=
  step_carries (Chunk.carries_ofItem (Nat.le_trans short (by decide))) short
    (fun _ => Chunk.isMinimal_ofItem (Nat.le_trans short (by decide))) executing

theorem advance_carries {item : Bytes} (carries : chunk.Carries item) (short : item.length ≤ maxItem)
    (minimal : ctx.flags.has .minimalData = true → chunk.isMinimal = true) (outside : before.flow = [])
    (room : before.stack.length + 1 + before.alt.length ≤ maxItems) :
    advance ctx place chunk before = .ok () { before with stack := item :: before.stack } :=
  advance_success_iff.mpr
    ⟨step_carries carries short minimal (State.executing_of_outside outside),room⟩

private theorem advanceAll_carries {items : List Bytes} (carries : List.Forall₂ Chunk.Carries chunks items)
    (short : ∀ item ∈ items, item.length ≤ maxItem)
    (minimal : ctx.flags.has .minimalData = true → ∀ chunk ∈ chunks, chunk.isMinimal = true)
    (outside : before.flow = [])
    (room : before.stack.length + items.length + before.alt.length ≤ maxItems) :
    advanceAll ctx place chunks before =
      .ok () { before with stack := items.reverse ++ before.stack } := by
  induction carries generalizing place before with
  | nil => rfl
  | @cons chunk item chunks items first others ih =>
    rw [List.forall_mem_cons] at short
    rw [List.length_cons] at room
    have stepped : advance ctx place chunk before =
        .ok () { before with stack := item :: before.stack } :=
      advance_carries first short.1 (fun strict => minimal strict _ List.mem_cons_self) outside (by omega)
    have room' : (item :: before.stack).length + items.length + before.alt.length ≤ maxItems := by
      rw [List.length_cons]
      omega
    have ran : advanceAll ctx (place + 1) chunks { before with stack := item :: before.stack } =
        .ok () { before with stack := items.reverse ++ item :: before.stack } :=
      ih short.2 (fun strict chunk member => minimal strict chunk (List.mem_cons_of_mem _ member)) outside
        room'
    rw [advanceAll,bind_of_success stepped,List.reverse_cons,List.append_assoc]
    exact ran

/-- What a chunk of a script of pushes has done: it has pushed one item, as its shortest chunk
does. -/
structure Pushes (ctx : Context) (chunk : Chunk) (before after : State) (item : Bytes) : Prop where
  pushed : after = { before with stack := item :: before.stack }
  shortest : (Chunk.ofItem item).size ≤ chunk.size
  unique : ctx.flags.has .minimalData = true → chunk = Chunk.ofItem item

-- The step lemma for pushes.
private theorem advance_pushes (complete : chunk.Complete) (small : chunk.opcode ≤ sixteen)
    (outside : before.flow = []) (ok : advance ctx place chunk before = .ok done after) :
    ∃ item, Pushes ctx chunk before after item := by
  cases complete with
  | op code defined above =>
    -- A small opcode beside the pushes of bytes is that of a number, or reserved and void.
    have executed : execute ctx place (Operation.ofOpcode code) before = .ok () after :=
      ((advance_small_success_iff small outside).mp ok).1
    rcases Operation.ofOpcode_small code small with ⟨n,pushes⟩ | invalid
    · obtain ⟨byte,encoded,own,same⟩ := Operation.encode_of_pushInt above pushes
      have shortest : Chunk.ofItem [byte] = .op code := by
        rw [Chunk.ofItem,if_pos own,same]
      rw [pushes,execute,encoded,push_apply] at executed
      cases executed
      exact ⟨[byte],rfl,Nat.le_of_eq (congrArg Chunk.size shortest),fun _ => shortest.symm⟩
    · rw [invalid] at executed
      cases executed
  | push header payload announced =>
    obtain ⟨short,minimal,_,_,rfl⟩ := (advance_push_success_iff outside).mp ok
    have bound : payload.length ≤ 0xffff := Nat.le_trans short (by decide)
    exact ⟨payload,rfl,Chunk.size_ofItem_le announced,fun strict =>
      (Chunk.isMinimal_iff announced bound).mp (minimal strict)⟩

/-- The run lemma for pushes: the items on the stack, and the script beside the shortest one. -/
theorem advanceAll_pushes (canonical : Script.Canonical chunks)
    (small : Script.isPushOnly chunks = true) (outside : before.flow = [])
    (ok : advanceAll ctx place chunks before = .ok done after) :
    ∃ items, after = { before with stack := items.reverse ++ before.stack } ∧
      (Script.ofItems items).size ≤ Script.size chunks ∧
      (ctx.flags.has .minimalData = true → chunks = Script.ofItems items) := by
  induction canonical generalizing place before with
  | nil =>
    cases ok
    exact ⟨[],rfl,Nat.le_refl 0,fun _ => rfl⟩
  | last chunk unfinished =>
    obtain ⟨middle,stepped,_⟩ := advanceAll_cons_success_iff.mp ok
    exact absurd stepped (advance_unfinished unfinished outside)
  | cons chunk rest complete canonical ih =>
    simp only [Script.isPushOnly,List.all_cons,Bool.and_eq_true,decide_eq_true_eq] at small
    obtain ⟨middle,stepped,ok⟩ := advanceAll_cons_success_iff.mp ok
    obtain ⟨item,rfl,shorter,unique⟩ := advance_pushes complete small.1 outside stepped
    obtain ⟨items,rfl,shorter',unique'⟩ := ih small.2 (by exact outside) ok
    refine ⟨item :: items,?_,Nat.add_le_add shorter shorter',?_⟩
    · rw [List.reverse_cons,List.append_assoc]
      rfl
    · intro strict
      rw [unique' strict,unique strict]
      rfl

end Machine

namespace Script

theorem canonical_of_carries {script : Script} {items : List Bytes}
    (carries : List.Forall₂ Chunk.Carries script items) : Canonical script := by
  induction carries with
  | nil => exact .nil
  | cons first others ih => exact .cons _ _ first.complete ih

private theorem isPushOnly_ofItems {items : List Bytes}
    (short : ∀ item ∈ items, item.length ≤ Chunk.maxPayload) : isPushOnly (ofItems items) = true := by
  simp only [isPushOnly,ofItems,List.all_map,List.all_eq_true,Function.comp_apply,decide_eq_true_eq]
  exact fun item member => Chunk.opcode_ofItem_le (short item member)

end Script

namespace Session

variable {rules : Rules} {redeem : Bool} {before after : Session} {bytes : Bytes}

theorem evaluate_pushes (empty : before.stack = [])
    (pushes : (Script.parse bytes).isPushOnly = true)
    (ok : evaluate rules (Script.parse bytes) redeem before = .ok () after) :
    ∃ items, after.stack = items.reverse ∧ (Script.ofItems items).size ≤ bytes.length ∧
      (rules.flags.has .minimalData = true → Script.parse bytes = Script.ofItems items) := by
  obtain ⟨state,ran,rfl⟩ := evaluate_success_iff.mp ok
  obtain ⟨_,ran,_⟩ := Machine.run_success_iff.mp ran
  obtain ⟨items,rfl,shorter,unique⟩ :=
    Machine.advanceAll_pushes (Script.canonical_parse bytes) pushes rfl ran
  have written : Script.size (Script.parse bytes) = bytes.length := by
    rw [← Script.length_toBytes,Script.toBytes_parse]
  refine ⟨items,?_,written ▸ shorter,unique⟩
  change items.reverse ++ before.stack = items.reverse
  rw [empty,List.append_nil]

theorem room_of_empty {n : Nat} (empty : before.stack = []) (few : n ≤ Machine.maxItems) :
    before.start.stack.length + n + before.start.alt.length ≤ Machine.maxItems := by
  change before.stack.length + n + 0 ≤ Machine.maxItems
  rw [empty,List.length_nil]
  omega

theorem evaluate_carries {script : Script} {items : List Bytes} (rules : Rules) (redeem : Bool)
    (empty : before.stack = []) (carries : List.Forall₂ Chunk.Carries script items)
    (short : ∀ item ∈ items, item.length ≤ Machine.maxItem) (few : items.length ≤ Machine.maxItems)
    (minimal : rules.flags.has .minimalData = true → ∀ chunk ∈ script, chunk.isMinimal = true)
    (size : script.size ≤ Script.maxSize) :
    ∃ after, evaluate rules script redeem before = .ok () after ∧ after.stack = items.reverse := by
  have ran : Machine.run { rules with script, redeem } before.start =
      .ok () { before.start with stack := items.reverse ++ before.start.stack } :=
    Machine.run_success_iff.mpr
      ⟨size,Machine.advanceAll_carries carries short minimal rfl (room_of_empty empty few),rfl⟩
  refine ⟨_,evaluate_success_iff.mpr ⟨_,ran,rfl⟩,?_⟩
  change items.reverse ++ before.stack = items.reverse
  rw [empty,List.append_nil]

theorem evaluate_ofItems {items : List Bytes} (rules : Rules) (redeem : Bool)
    (empty : before.stack = []) (short : ∀ item ∈ items, item.length ≤ Machine.maxItem)
    (few : items.length ≤ Machine.maxItems) (size : (Script.ofItems items).size ≤ Script.maxSize) :
    ∃ after, evaluate rules (Script.ofItems items) redeem before = .ok () after ∧
      after.stack = items.reverse := by
  have carries := Script.carries_ofItems fun item member => Nat.le_trans (short item member) (by decide)
  refine evaluate_carries rules redeem empty carries short few (fun _ chunk member => ?_) size
  obtain ⟨item,inside,rfl⟩ := List.mem_map.mp member
  exact Chunk.isMinimal_ofItem (Nat.le_trans (short item inside) (by decide))

/-- Where pushes must be minimal, the items that a script of pushes leaves tell its bytes. Any items
within the limits are left by such a script, and no script of pushes that leaves them is shorter,
whatever the flags. -/
theorem pushes_canonical :
    (∀ rules rules' redeem redeem' before before' after after' bytes bytes',
      rules.flags.has .minimalData = true → rules'.flags.has .minimalData = true →
      before.stack = [] → before'.stack = [] →
      (Script.parse bytes).isPushOnly = true → (Script.parse bytes').isPushOnly = true →
      evaluate rules (Script.parse bytes) redeem before = .ok () after →
      evaluate rules' (Script.parse bytes') redeem' before' = .ok () after' →
      after.stack = after'.stack → bytes = bytes') ∧
    ∀ items : List Bytes, (∀ item ∈ items, item.length ≤ 520) → items.length ≤ 1000 →
      (Script.ofItems items).size ≤ 10000 →
      ∃ bytes, bytes = (Script.ofItems items).toBytes ∧ (Script.parse bytes).isPushOnly = true ∧
        (∀ rules redeem before, before.stack = [] → ∃ after,
          evaluate rules (Script.parse bytes) redeem before = .ok () after ∧
          after.stack = items.reverse) ∧
        ∀ rules redeem before after bytes', before.stack = [] →
          (Script.parse bytes').isPushOnly = true →
          evaluate rules (Script.parse bytes') redeem before = .ok () after →
          after.stack = items.reverse → bytes.length ≤ bytes'.length := by
  constructor
  · intro rules rules' redeem redeem' before before' after after' bytes bytes' strict strict' empty
      empty' pushes pushes' ok ok' same
    obtain ⟨items,left,_,unique⟩ := evaluate_pushes empty pushes ok
    obtain ⟨items',left',_,unique'⟩ := evaluate_pushes empty' pushes' ok'
    have equal : items = items' := List.reverse_inj.mp (left.symm.trans (same.trans left'))
    have chunks : Script.parse bytes = Script.parse bytes' := by
      rw [unique strict,unique' strict',equal]
    rw [← Script.toBytes_parse bytes,chunks,Script.toBytes_parse]
  · intro items short few size
    have short' : ∀ item ∈ items, item.length ≤ Chunk.maxPayload :=
      fun item member => Nat.le_trans (short item member) (by decide)
    have parsed := (Script.canonical_of_carries (Script.carries_ofItems short')).parse_toBytes
    refine ⟨_,rfl,?_,?_,?_⟩
    · rw [parsed]
      exact Script.isPushOnly_ofItems short'
    · intro rules redeem before empty
      rw [parsed]
      exact evaluate_ofItems rules redeem empty short few size
    · intro rules redeem before after bytes' empty pushes ok left
      obtain ⟨items',left',shorter,_⟩ := evaluate_pushes empty pushes ok
      have equal : items' = items := List.reverse_inj.mp (left'.symm.trans left)
      rw [Script.length_toBytes,← equal]
      exact shorter

/-- Four items, two of which have an opcode of their own, and a longer script for them. -/
theorem pushes_canonical_fourItems :
    ([0x00,0x4f,0x55,0x02,0x01,0x02] : Bytes) =
      (Script.ofItems [[],[0x81],[0x05],[0x01,0x02]]).toBytes ∧
    (Script.ofItems [[],[0x81],[0x05],[0x01,0x02]]).toBytes.length ≤
      ([0x4c,0x00,0x4f,0x55,0x02,0x01,0x02] : Bytes).length := by
  obtain ⟨bytes,rfl,pushes,evaluates,shortest⟩ :=
    pushes_canonical.2 [[],[0x81],[0x05],[0x01,0x02]] (by decide) (by decide) (by decide)
  have parsed : Script.parse [0x00,0x4f,0x55,0x02,0x01,0x02] =
      [.push [0x00] [],.op 0x4f,.op 0x55,.push [0x02] [0x01,0x02]] := by decide +kernel
  have parsed' : Script.parse [0x4c,0x00,0x4f,0x55,0x02,0x01,0x02] =
      [.push [0x4c,0x00] [],.op 0x4f,.op 0x55,.push [0x02] [0x01,0x02]] := by decide +kernel
  constructor
  · obtain ⟨after',ok',left'⟩ := evaluates ⟨Flags.standard,Oracle.never⟩ false {} rfl
    have evaluated : ∃ after, evaluate ⟨Flags.standard,Oracle.never⟩
        (Script.parse [0x00,0x4f,0x55,0x02,0x01,0x02]) false {} = .ok () after ∧
        after.stack = [[0x01,0x02],[0x05],[0x81],[]] := by
      rw [parsed]
      exact ⟨_,rfl,by decide +kernel⟩
    obtain ⟨after,ok,left⟩ := evaluated
    exact pushes_canonical.1 _ _ _ _ _ _ _ _ _ _ (by decide) (by decide) rfl rfl
      (by rw [parsed]; decide) pushes ok ok' (left.trans left'.symm)
  · have evaluated : ∃ after, evaluate ⟨Flags.mandatory,Oracle.never⟩
        (Script.parse [0x4c,0x00,0x4f,0x55,0x02,0x01,0x02]) false {} = .ok () after ∧
        after.stack = [[0x01,0x02],[0x05],[0x81],[]] := by
      rw [parsed']
      exact ⟨_,rfl,by decide +kernel⟩
    obtain ⟨after,ok,left⟩ := evaluated
    exact shortest _ _ {} after _ rfl (by rw [parsed']; decide) ok left

end Session

end ColorScript
