import ColorScript.Proofs.Charges

/-! The two marks that a run sets beside its stacks: the place where the code of signatures starts,
and the colour. Each has one operation that sets it; every other chunk leaves both alone. -/
namespace ColorScript

/-- How an operation may give a colour: it is read from the item on top of the stack, outside of all
branches and of redeem scripts, and there was none before. -/
structure Paints (ctx : Context) (before : State) (item : Bytes) (rest : Stack) (color : ColorId) :
    Prop where
  top : before.stack = item :: rest
  outside : before.flow = []
  plain : ctx.redeem = false
  fresh : before.color = none
  read : ColorId.ofBytes item = .ok color

/-- What becomes of the marks where a run comes to a chunk, whether it succeeds or fails. -/
inductive Visit.Marks (ctx : Context) (visit : Visit) (after : State) : Prop
  | same (codeStart : after.codeStart = visit.before.codeStart)
      (color : after.color = visit.before.color) : Marks ctx visit after
  | separator (separates : visit.operation? = some .codeSeparator)
      (codeStart : after.codeStart = visit.place + 1) (color : after.color = visit.before.color) :
      Marks ctx visit after
  | color {item : Bytes} {rest : Stack} {color : ColorId} (colors : visit.operation? = some .setColor)
      (paints : Paints ctx visit.before item rest color)
      (codeStart : after.codeStart = visit.before.codeStart) (painted : after.color = some color) :
      Marks ctx visit after

namespace Machine

variable {ctx : Context} {before after : State} {place : Nat} {chunk : Chunk} {done : Unit}

theorem setColor_final (ctx : Context) (before : State) :
    final (setColor ctx before) = before ∨ ∃ item rest color, Paints ctx before item rest color ∧
      final (setColor ctx before) = { before with stack := rest, color := some color } := by
  let painted (last : State) : Prop := last = before ∨
    ∃ item rest color, Paints ctx before item rest color ∧
      last = { before with stack := rest, color := some color }
  have unpainted : painted before := .inl rfl
  refine (require_looks 1).bind_motive (motive := painted) unpainted fun _ _ => ?_
  refine Looks.get.bind_motive (motive := painted) unpainted fun state looked => ?_
  cases looked
  refine (ensure_looks _ _).bind_motive (motive := painted) unpainted fun _ outside => ?_
  refine (ensure_looks _ _).bind_motive (motive := painted) unpainted fun _ plain => ?_
  refine Looks.get.bind_motive (motive := painted) unpainted fun state looked => ?_
  cases looked
  refine (ensure_looks _ _).bind_motive (motive := painted) unpainted fun _ fresh => ?_
  refine (peek_looks 0).bind_motive (motive := painted) unpainted fun item found => ?_
  cases read : ColorId.ofBytes item with
  | error fault => exact unpainted
  | ok color =>
    obtain ⟨rest,top⟩ := peek?_zero (peek_success_iff.mp found).1
    dsimp only
    rw [bind_of_success (pop_cons top)]
    refine .inr ⟨item,rest,color,⟨top,?_,?_,?_,read⟩,rfl⟩
    · simpa using (ensure_success_iff.mp outside).1
    · simpa using (ensure_success_iff.mp plain).1
    · simpa using (ensure_success_iff.mp fresh).1

private theorem marks_steady (ctx : Context) (codeStart : Nat) (color : Option ColorId) :
    Steady ctx (fun _ => True) fun state => state.codeStart = codeStart ∧ state.color = color :=
  { stack := fun _ _ _ => trivial
    alt := fun _ _ _ => trivial
    setStack := fun held _ => held
    setAlt := fun held _ => held
    count := fun _ held => held
    record := fun _ held => held
    short := fun _ => trivial
    size := fun _ => trivial }

private theorem execute_unmarked (ctx : Context) (place : Nat) {operation : Operation}
    (unmarked : operation ≠ .codeSeparator ∧ operation ≠ .setColor)
    (pushes : ∀ n, operation = .pushInt n → n.natAbs < 2 ^ 64) (before : State) :
    (final (execute ctx place operation before)).codeStart = before.codeStart ∧
      (final (execute ctx place operation before)).color = before.color := by
  by_cases bracket : ∃ (bracket : Bracket) (negated : Bool), operation = bracket.operation negated
  · obtain ⟨bracket,negated,rfl⟩ := bracket
    obtain ⟨stack,flow,last,_⟩ := execute_bracket_final ctx place bracket negated before
    rw [last]
    exact ⟨rfl,rfl⟩
  · have plain (bracket' : Bracket) (negated : Bool) : operation ≠ bracket'.operation negated :=
      fun same => bracket ⟨bracket',negated,same⟩
    have steady := marks_steady ctx before.codeStart before.color
    exact (execute_steady steady place operation plain unmarked pushes ⟨rfl,rfl⟩ trivial).final

private theorem effect_marks (ctx : Context) (visit : Visit) (fits : visit.chunk.refusal? ctx.flags = none) :
    visit.Marks ctx (final (effect ctx visit.place visit.chunk visit.before)) := by
  cases found : visit.operation? with
  | none =>
    have steady := marks_steady ctx visit.before.codeStart visit.before.color
    have kept := effect_ends steady.toSettled visit.place fits ⟨rfl,rfl⟩ fun operation reached =>
      nomatch found.symm.trans (Visit.operation?_eq_some_iff.mpr ⟨operation,reached,rfl⟩)
    exact .same kept.final.1 kept.final.2
  | some operation =>
    rw [effect_executed ctx found]
    by_cases separates : operation = .codeSeparator
    · subst separates
      exact .separator found rfl rfl
    · by_cases colors : operation = .setColor
      · subst colors
        change visit.Marks ctx (final (setColor ctx visit.before))
        rcases setColor_final ctx visit.before with same | ⟨item,rest,color,paints,last⟩
        · rw [same]
          exact .same rfl rfl
        · rw [last]
          exact .color found paints rfl rfl
      · obtain ⟨_,_,named⟩ := Visit.operation?_eq_some_iff.mp found
        have kept := execute_unmarked ctx visit.place ⟨separates,colors⟩
          (fun n pushes => Operation.natAbs_of_ofOpcode (named.trans pushes)) visit.before
        exact .same kept.1 kept.2

/-- The step lemma. -/
theorem after_marks (ctx : Context) (visit : Visit) : visit.Marks ctx (visit.after ctx) := by
  obtain ⟨place,chunk,before⟩ := visit
  rcases after_cases ctx place chunk before with ⟨error,_,reached⟩ | ⟨skipped,reached⟩
  · rw [reached]
    exact .same rfl rfl
  · obtain ⟨_,fits,_⟩ := skip_success_iff.mp skipped
    rw [reached]
    -- The count of operations is all that the checks have changed.
    cases effect_marks ctx ⟨place,chunk,before.counting [chunk]⟩ fits with
    | same codeStart color => exact .same codeStart color
    | separator separates codeStart color => exact .separator separates codeStart color
    | color colors paints codeStart painted =>
      obtain ⟨top,outside,plain,fresh,read⟩ := paints
      exact .color colors ⟨top,outside,plain,fresh,read⟩ codeStart painted

end Machine

end ColorScript
