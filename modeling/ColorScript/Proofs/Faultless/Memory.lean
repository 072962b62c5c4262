import ColorScript.Checked.Codec
import ColorScript.Proofs.Marks
import ColorScript.Proofs.ResourceLimits

/-! The memory that a run takes. No chunk makes the stacks much larger, whether it succeeds or fails, and
one that succeeds leaves them within limits far below the size of a memory. -/
namespace ColorScript

/-- Stacks that fit in memory, of which the alternative one was empty when the run began. -/
structure State.Addressable (state : State) : Prop where
  stack : state.stack.length < 2 ^ 63
  items : ∀ item ∈ state.stack, item.Addressable
  alt : state.alt.length ≤ Machine.maxItems
  altItems : ∀ item ∈ state.alt, item.Addressable
  opCount : state.opCount ≤ Machine.maxOps

namespace Machine

variable {ctx : Context} {before after : State} {place : Nat} {chunk : Chunk}

private theorem alt_settled (ctx : Context) (alt : Stack) :
    Settled ctx (fun _ => True) fun state => state.alt = alt :=
  { stack := fun _ _ _ => trivial
    setStack := fun held _ => held
    count := fun _ held => held
    record := fun _ held => held
    short := fun _ => trivial
    size := fun _ => trivial }

private theorem toAlt_alt (before : State) : (final (toAlt before)).alt.length ≤ before.alt.length + 1 := by
  rw [toAlt]
  refine bind_final (motive := fun last : State => last.alt.length ≤ before.alt.length + 1) ?_ ?_
  · intro error middle failed
    cases stack : before.stack with
    | nil =>
      rw [pop_nil stack] at failed
      cases failed
      exact Nat.le_succ _
    | cons top rest =>
      rw [pop_cons stack] at failed
      cases failed
  · intro item middle popped
    obtain ⟨_,_,rfl⟩ := pop_success_iff.mp popped
    exact Nat.le_refl _

private theorem fromAlt_alt (before : State) : (final (fromAlt before)).alt.length ≤ before.alt.length + 1 := by
  obtain ⟨stack,alt,flow,opCount,codeStart,color,calls⟩ := before
  cases alt with
  | nil => exact Nat.zero_le _
  | cons item rest =>
    change rest.length ≤ rest.length + 1 + 1
    omega

/-- The step lemma of an operation for the length of the alternative stack. -/
theorem execute_alt (ctx : Context) (place : Nat) {operation : Operation}
    (pushes : ∀ n, operation = .pushInt n → n.natAbs < 2 ^ 64) (before : State) :
    (final (execute ctx place operation before)).alt.length ≤ before.alt.length + 1 := by
  -- Two operations change the alternative stack; those of brackets and marks are told apart as well.
  by_cases bracket : ∃ (bracket : Bracket) (negated : Bool), operation = bracket.operation negated
  · obtain ⟨bracket,negated,rfl⟩ := bracket
    obtain ⟨stack,flow,last,_⟩ := execute_bracket_final ctx place bracket negated before
    rw [last]
    exact Nat.le_succ _
  · have plain (bracket' : Bracket) (negated : Bool) : operation ≠ bracket'.operation negated :=
      fun same => bracket ⟨bracket',negated,same⟩
    cases operation with
    | toAlt => exact toAlt_alt before
    | fromAlt => exact fromAlt_alt before
    | codeSeparator => exact Nat.le_succ _
    | setColor =>
      change (final (setColor ctx before)).alt.length ≤ _
      rcases setColor_final ctx before with same | ⟨item,rest,color,_,last⟩
      · rw [same]
        exact Nat.le_succ _
      · rw [last]
        exact Nat.le_succ _
    | _ =>
      have kept := execute_settled (alt_settled ctx before.alt) place _ plain ⟨nofun,nofun⟩ ⟨nofun,nofun⟩
        pushes rfl trivial
      rw [kept.final]
      exact Nat.le_succ _

/-- The step lemma of a chunk for the length of the alternative stack. -/
theorem after_alt (ctx : Context) (visit : Visit) :
    (visit.after ctx).alt.length ≤ visit.before.alt.length + 1 := by
  obtain ⟨place,chunk,before⟩ := visit
  rcases after_cases ctx place chunk before with ⟨error,_,reached⟩ | ⟨skipped,reached⟩
  · rw [reached]
    exact Nat.le_succ _
  · obtain ⟨_,fits,_⟩ := skip_success_iff.mp skipped
    rw [reached]
    cases found : (Visit.mk place chunk (before.counting [chunk])).operation? with
    | none =>
      have kept : Ends (fun state => state.alt = before.alt) (fun _ => True)
          (fun error => error.arises ctx = true)
          (effect ctx place chunk (before.counting [chunk])) :=
        effect_ends (alt_settled ctx before.alt) place fits rfl fun operation reached => nomatch
          found.symm.trans (Visit.operation?_eq_some_iff.mpr ⟨operation,reached,rfl⟩)
      rw [kept.final]
      exact Nat.le_succ _
    | some operation =>
      obtain ⟨_,_,named⟩ := Visit.operation?_eq_some_iff.mp found
      have executed := effect_executed ctx found
      dsimp only at executed
      rw [executed]
      exact execute_alt ctx place (fun n pushes => Operation.natAbs_of_ofOpcode (named.trans pushes)) _

private theorem items_addressable (ctx : Context) : Stable ctx Bytes.Addressable fun state =>
    (∀ item ∈ state.stack, item.Addressable) ∧ ∀ item ∈ state.alt, item.Addressable :=
  { stack := fun held => held.1
    alt := fun held => held.2
    setStack := fun held items => ⟨items,held.2⟩
    setAlt := fun held items => ⟨held.1,items⟩
    count := fun _ held => held
    separate := fun _ held => held
    paint := fun _ held => held
    record := fun _ held => held
    short := fun short => Nat.lt_of_le_of_lt short (by decide)
    size := fun {item} fits => by
      have small : (item.length : Int).natAbs < 256 ^ 8 := Nat.lt_trans fits (by decide)
      exact Nat.lt_of_le_of_lt (Number.length_encode_le small) (by decide) }

private theorem advance_items_addressable (ctx : Context) (place : Nat) (chunk : Chunk) (fits : before.Addressable) :
    (∀ item ∈ (final (advance ctx place chunk before)).stack, item.Addressable) ∧
      ∀ item ∈ (final (advance ctx place chunk before)).alt, item.Addressable := by
  have small : (before.stack.length : Int).natAbs < 256 ^ 8 := Nat.lt_trans fits.stack (by decide)
  exact advance_stable (items_addressable ctx) place chunk
    (fun _ _ suffix => ⟨fun item member => fits.items item (suffix.subset member),fits.altItems⟩)
    (Nat.lt_of_le_of_lt (Number.length_encode_le small) (by decide))

/-- The step lemma for the memory that a run takes. -/
theorem advance_addressable (fits : before.Addressable)
    (ok : advance ctx place chunk before = .ok () after) : after.Addressable := by
  have items := advance_items_addressable ctx place chunk fits
  rw [ok] at items
  have few : after.stack.length + after.alt.length ≤ 1000 := (advance_success_iff.mp ok).2
  exact ⟨by omega,items.1,Nat.le_trans (Nat.le_add_left _ _) few,items.2,
    (advance_opCount ok).2 fits.opCount⟩

private theorem advanceAll_memory (ctx : Context) (place : Nat) (chunks : List Chunk) (fits : before.Addressable) :
    (∀ item ∈ (final (advanceAll ctx place chunks before)).stack, item.Addressable) ∧
      (final (advanceAll ctx place chunks before)).stack.length ≤ max before.stack.length maxItems + 3 := by
  induction chunks generalizing place before with
  | nil => exact ⟨fits.items,Nat.le_trans (Nat.le_max_left _ _) (Nat.le_add_right _ 3)⟩
  | cons chunk rest ih =>
    rw [advanceAll]
    refine bind_final (motive := fun last : State => (∀ item ∈ last.stack, item.Addressable) ∧
      last.stack.length ≤ max before.stack.length maxItems + 3) ?_ ?_
    · intro error middle failed
      have items := advance_items_addressable ctx place chunk fits
      have more := (advance_affordable ctx ⟨place,chunk,before⟩).stack
      rw [failed] at items
      rw [Visit.after,failed] at more
      exact ⟨items.1,Nat.le_trans more (Nat.add_le_add_right (Nat.le_max_left _ _) 3)⟩
    · intro done middle stepped
      obtain ⟨items,more⟩ := ih (place + 1) (advance_addressable fits stepped)
      have few : middle.stack.length ≤ maxItems :=
        Nat.le_trans (Nat.le_add_right _ _) (advance_success_iff.mp stepped).2
      rw [Nat.max_eq_right few] at more
      exact ⟨items,Nat.le_trans more (Nat.add_le_add_right (Nat.le_max_right _ _) 3)⟩

theorem run_memory (ctx : Context) (fits : before.Addressable) :
    (∀ item ∈ (final (run ctx before)).stack, item.Addressable) ∧
      (final (run ctx before)).stack.length ≤ max before.stack.length maxItems + 3 := by
  rw [run_final]
  split
  next => exact advanceAll_memory ctx 0 ctx.script fits
  next => exact ⟨fits.items,Nat.le_trans (Nat.le_max_left _ _) (Nat.le_add_right _ 3)⟩

end Machine

end ColorScript
