import ColorScript.Proofs.Charges

/-! The chunks that a run comes to, in the order of the script. -/
namespace ColorScript

namespace Machine

variable {ctx : Context} {before : State} {place : Nat} {chunk : Chunk} {chunks : List Chunk}
  {visit : Visit}

/-- A run comes to its first chunk, and to the others if that one succeeds. -/
theorem visits_cons_cases (member : visit ∈ visits ctx place (chunk :: chunks) before) :
    visit = ⟨place,chunk,before⟩ ∨ ∃ middle, advance ctx place chunk before = .ok () middle ∧
      visit ∈ visits ctx (place + 1) chunks middle := by
  rw [visits] at member
  rcases List.mem_cons.mp member with same | member
  · exact .inl same
  · cases stepped : advance ctx place chunk before with
    | error error middle =>
      rw [stepped] at member
      cases member
    | ok done middle =>
      rw [stepped] at member
      exact .inr ⟨middle,rfl,member⟩

/-- What holds at the start of a run holds at every chunk that it comes to, if chunks keep it. -/
theorem visits_preserve {holds : State → Prop}
    (keeps : ∀ place chunk before after,
      advance ctx place chunk before = .ok () after → holds before → holds after)
    (held : holds before) (member : visit ∈ visits ctx place chunks before) : holds visit.before := by
  induction chunks generalizing place before with
  | nil => cases member
  | cons chunk rest ih =>
    rcases visits_cons_cases member with rfl | ⟨middle,stepped,member⟩
    · exact held
    · exact ih (keeps place chunk before middle stepped held) member

private theorem place_of_visits (member : visit ∈ visits ctx place chunks before) :
    ∃ offset, visit.place = place + offset ∧ chunks[offset]? = some visit.chunk := by
  induction chunks generalizing place before with
  | nil => cases member
  | cons chunk rest ih =>
    rcases visits_cons_cases member with rfl | ⟨middle,_,member⟩
    · exact ⟨0,rfl,rfl⟩
    · obtain ⟨offset,same,found⟩ := ih member
      exact ⟨offset + 1,by omega,found⟩

theorem le_place_of_visits (member : visit ∈ visits ctx place chunks before) : place ≤ visit.place := by
  obtain ⟨offset,same,_⟩ := place_of_visits member
  exact Nat.le.intro same.symm

end Machine

theorem Run.visits_of_mem {run : Run} {visit : Visit} (member : visit ∈ run.visits) :
    run.visits = Machine.visits run.ctx 0 run.ctx.script run.start := by
  unfold visits at member ⊢
  split at member
  next room => rw [if_pos room]
  next => cases member

theorem Run.getElem?_of_mem {run : Run} {visit : Visit} (member : visit ∈ run.visits) :
    run.ctx.script[visit.place]? = some visit.chunk := by
  obtain ⟨offset,same,found⟩ := Machine.place_of_visits (visits_of_mem member ▸ member)
  rwa [same,Nat.zero_add]

end ColorScript
