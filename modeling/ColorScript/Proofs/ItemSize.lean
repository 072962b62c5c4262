import ColorScript.Proofs.Branches
import ColorScript.Proofs.Footprint
import ColorScript.Proofs.Verification

/-! The length of items. Whatever operations put on the stacks is short enough to be pushed, so that
a run on such items leaves only such items, and never more of them than the stacks may hold. -/
namespace ColorScript

/-- The limits of the stacks: of their items together, and of the length of each item. -/
structure State.Within (state : State) : Prop where
  items : state.stack.length + state.alt.length ≤ Machine.maxItems
  stack : ∀ item ∈ state.stack, item.length ≤ Machine.maxItem
  alt : ∀ item ∈ state.alt, item.length ≤ Machine.maxItem

/-- No item on the stacks is too long. -/
def State.Short (state : State) : Prop :=
  (∀ item ∈ state.stack, item.length ≤ Machine.maxItem) ∧
    ∀ item ∈ state.alt, item.length ≤ Machine.maxItem

namespace Machine

variable {ctx : Context} {before after : State} {place : Nat} {chunk : Chunk} {chunks : List Chunk}
  {done : Unit}

private theorem length_encode_length_le {n : Nat} (bound : n ≤ maxItems) :
    (Number.encode n).length ≤ maxItem := by
  have small : (n : Int).natAbs < 256 ^ 8 := by
    have limit : n < 256 ^ 8 := Nat.lt_of_le_of_lt bound (by decide)
    simpa using limit
  have length : (Number.encode n).length ≤ 8 + 1 := Number.length_encode_le small
  exact Nat.le_trans length (by decide)

private theorem items_stable (ctx : Context) :
    Stable ctx (fun item => item.length ≤ maxItem) State.Short :=
  { stack := fun held => held.1
    alt := fun held => held.2
    setStack := fun held items => ⟨items,held.2⟩
    setAlt := fun held items => ⟨held.1,items⟩
    count := fun _ held => held
    separate := fun _ held => held
    paint := fun _ held => held
    record := fun _ held => held
    short := id
    size := fun short => length_encode_length_le (Nat.le_trans short (by decide)) }

/-- The step lemma of an invariant that lasts as well where a part of the stack is taken off, which is
what a bracket leaves. It holds where the chunk fails, too. -/
theorem advance_stable {sound : Bytes → Prop} {holds : State → Prop} (stable : Stable ctx sound holds)
    (place : Nat) (chunk : Chunk)
    (left : ∀ {stack : Stack} (opCount : Nat) (flow : List Bool), stack <:+ before.stack →
      holds { before with stack, opCount, flow })
    (counts : sound (Number.encode before.stack.length)) : holds (final (advance ctx place chunk before)) := by
  cases kind : chunk.bracket? with
  | none => exact (advance_plain stable place kind (left _ _ List.suffix_rfl) counts).final
  | some bracket =>
    rw [advance_bracket place kind]
    refine bind_final (motive := holds) (fun error middle failed => ?_) fun done middle charged => ?_
    · have same := charge_final 1 before
      rw [failed] at same
      obtain rfl : middle = { before with opCount := before.opCount + 1 } := same
      exact left _ _ List.suffix_rfl
    · obtain ⟨_,rfl⟩ := charge_success_iff.mp charged
      rw [Looks.final_bind fun _ => limit_looks]
      obtain ⟨stack,flow,last,suffix⟩ := execute_bracket_final ctx place bracket (chunk.opcode = 0x64)
        { before with opCount := before.opCount + 1 }
      rw [last]
      exact left _ _ suffix

/-- The step lemma for the length of items. They are short where a chunk fails, too. -/
theorem advance_short (ctx : Context) (place : Nat) (chunk : Chunk) (within : before.Within) :
    (final (advance ctx place chunk before)).Short := by
  have depth : before.stack.length ≤ maxItems := Nat.le_trans (Nat.le_add_right _ _) within.items
  exact advance_stable (items_stable ctx) place chunk
    (fun _ _ suffix => ⟨fun item member => within.stack item (suffix.subset member),within.alt⟩)
    (length_encode_length_le depth)

/-- The step lemma for the limits of the stacks. -/
theorem advance_items (within : before.Within)
    (ok : advance ctx place chunk before = .ok done after) : after.Within := by
  have short := advance_short ctx place chunk within
  rw [ok] at short
  exact ⟨(advance_success_iff.mp ok).2,short.1,short.2⟩

theorem advanceAll_items (within : before.Within)
    (ok : advanceAll ctx place chunks before = .ok done after) : after.Within :=
  advanceAll_preserves (fun _ _ _ _ stepped within => advance_items within stepped) within ok

end Machine

theorem Session.evaluate_items {rules : Rules} {script : Script} {redeem : Bool}
    {before after : Session} (items : before.stack.length ≤ Machine.maxItems)
    (short : ∀ item ∈ before.stack, item.length ≤ Machine.maxItem)
    (ok : evaluate rules script redeem before = .ok () after) :
    after.stack.length ≤ Machine.maxItems ∧ ∀ item ∈ after.stack, item.length ≤ Machine.maxItem := by
  obtain ⟨state,ran,rfl⟩ := evaluate_success_iff.mp ok
  obtain ⟨_,ran,_⟩ := Machine.run_success_iff.mp ran
  have start : before.start.Within := ⟨items,short,fun _ member => nomatch member⟩
  have within := Machine.advanceAll_items start ran
  exact ⟨Nat.le_trans (Nat.le_add_right _ _) within.items,within.stack⟩

end ColorScript
