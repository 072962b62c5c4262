import ColorScript.Machine.Conditional
import ColorScript.Machine.Visit
import ColorScript.Proofs.Success

/-! The footprint of a step: how many items it may add to the stack, and which questions it asks, how
many at most. It is the same whether the step succeeds or fails. -/
namespace ColorScript

theorem bind_final {ε σ α β : Type} {motive : σ → Prop} {first : EStateM ε σ α}
    {next : α → EStateM ε σ β} {before : σ}
    (failed : ∀ error middle, first before = .error error middle → motive middle)
    (tail : ∀ value middle, first before = .ok value middle → motive (final (next value middle))) :
    motive (final ((first >>= next) before)) := by
  cases done : first before with
  | ok value middle =>
    rw [bind_of_success done]
    exact tail value middle done
  | error error middle =>
    rw [bind_of_failure done]
    exact failed error middle done

/-- A step that leaves the state as it is, whether it succeeds or fails. -/
def Looks {ε σ α : Type} (step : EStateM ε σ α) : Prop := ∀ before, final (step before) = before

namespace Looks

variable {ε σ α β : Type} {first : EStateM ε σ α} {next : α → EStateM ε σ β} {before : σ}

theorem pure (value : α) : Looks (Pure.pure value : EStateM ε σ α) := fun _ => rfl

theorem throw (error : ε) : Looks (MonadExcept.throw error : EStateM ε σ α) := fun _ => rfl

theorem get : Looks (MonadState.get : EStateM ε σ σ) := fun _ => rfl

theorem bind_motive {motive : σ → Prop} (looks : Looks first) (held : motive before)
    (tail : ∀ value, first before = .ok value before → motive (final (next value before))) :
    motive (final ((first >>= next) before)) := by
  have same := looks before
  refine bind_final (fun error middle failed => ?_) fun value middle done => ?_
  · rw [failed] at same
    obtain rfl : middle = before := same
    exact held
  · rw [done] at same
    obtain rfl : middle = before := same
    exact tail value done

theorem bind (looks : Looks first) (tail : ∀ value, Looks (next value)) : Looks (first >>= next) :=
  fun before => looks.bind_motive (motive := (· = before)) rfl fun value _ => tail value before

theorem final_bind (looks : ∀ value, Looks (next value)) :
    final ((first >>= next) before) = final (first before) := by
  refine bind_final (motive := (· = final (first before))) ?_ ?_
  · intro error middle failed
    rw [failed]
    rfl
  · intro value middle done
    rw [done]
    exact looks value middle

theorem check (condition : Bool) (error : ε) :
    Looks (if condition then Pure.pure () else MonadExcept.throw error : EStateM ε σ Unit) := by
  cases condition with
  | true => exact Looks.pure ()
  | false => exact Looks.throw error

end Looks

def Oracle.reply (oracle : Oracle) (query : Query) : Call := ⟨query,oracle query⟩

/-- What may have happened between two states: no operation was counted, at most `items` were added
to the stack, and at most `questions` were asked, all of one kind. -/
structure Moved (oracle : Oracle) (asks : Query → Prop) (items questions : Nat)
    (before after : State) : Prop where
  stack : after.stack.length ≤ before.stack.length + items
  opCount : after.opCount = before.opCount
  calls : ∃ queries : List Query, after.calls = before.calls ++ queries.map oracle.reply ∧
    queries.length ≤ questions ∧ ∀ query ∈ queries, asks query

namespace Moved

variable {oracle : Oracle} {asks : Query → Prop} {items items' questions questions' : Nat}
  {before middle after : State}

theorem silent (stack : after.stack.length ≤ before.stack.length + items)
    (opCount : after.opCount = before.opCount) (calls : after.calls = before.calls) :
    Moved oracle asks items questions before after :=
  ⟨stack,opCount,[],calls.trans (List.append_nil _).symm,Nat.zero_le _,nofun⟩

theorem refl (before : State) : Moved oracle asks items questions before before :=
  silent (Nat.le_add_right _ _) rfl rfl

theorem trans (first : Moved oracle asks items questions before middle)
    (second : Moved oracle asks items' questions' middle after) :
    Moved oracle asks (items + items') (questions + questions') before after := by
  obtain ⟨queries,asked,few,fine⟩ := first.calls
  obtain ⟨queries',asked',few',fine'⟩ := second.calls
  refine ⟨?_,second.opCount.trans first.opCount,queries ++ queries',?_,?_,?_⟩
  · have grown := first.stack
    have grown' := second.stack
    omega
  · rw [asked',asked,List.map_append,List.append_assoc]
  · rw [List.length_append]
    exact Nat.add_le_add few few'
  · intro query member
    exact (List.mem_append.mp member).elim (fine query) (fine' query)

theorem mono (moved : Moved oracle asks items questions before after) (more : items ≤ items')
    (more' : questions ≤ questions') : Moved oracle asks items' questions' before after := by
  obtain ⟨queries,asked,few,fine⟩ := moved.calls
  exact ⟨Nat.le_trans moved.stack (Nat.add_le_add_left more _),moved.opCount,queries,asked,
    Nat.le_trans few more',fine⟩

theorem imp {asks' : Query → Prop} (moved : Moved oracle asks items questions before after)
    (implied : ∀ query, asks query → asks' query) :
    Moved oracle asks' items questions before after := by
  obtain ⟨queries,asked,few,fine⟩ := moved.calls
  exact ⟨moved.stack,moved.opCount,queries,asked,few,fun query member => implied query (fine query member)⟩

end Moved

/-- However a step ends, it moves no further than that. -/
def Moves (oracle : Oracle) (asks : Query → Prop) (items questions : Nat) {α : Type}
    (step : Machine α) : Prop :=
  ∀ before, Moved oracle asks items questions before (final (step before))

section Rules

variable {α β : Type} {oracle : Oracle} {asks : Query → Prop}
  {items items' questions questions' : Nat} {before : State} {first : Machine α}
  {next : α → Machine β}

theorem Looks.followed (looks : Looks first)
    (tail : ∀ value, first before = .ok value before →
      Moved oracle asks items questions before (final (next value before))) :
    Moved oracle asks items questions before (final ((first >>= next) before)) :=
  looks.bind_motive (Moved.refl before) tail

theorem Looks.seq (looks : Looks first)
    (tail : ∀ value, Moves oracle asks items questions (next value)) :
    Moves oracle asks items questions (first >>= next) :=
  fun before => looks.followed fun value _ => tail value before

theorem Looks.moves (looks : Looks first) : Moves oracle asks items questions first := by
  intro before
  rw [looks before]
  exact Moved.refl before

namespace Moves

theorem mono {step : Machine α} (moves : Moves oracle asks items questions step)
    (more : items ≤ items') (more' : questions ≤ questions') :
    Moves oracle asks items' questions' step :=
  fun before => (moves before).mono more more'

private theorem andThen (head : Moves oracle asks items questions first)
    (tail : ∀ value middle, first before = .ok value middle →
      Moved oracle asks items' questions' middle (final (next value middle))) :
    Moved oracle asks (items + items') (questions + questions') before
      (final ((first >>= next) before)) := by
  have moved := head before
  refine bind_final (fun error middle failed => ?_) fun value middle done => ?_
  · rw [failed] at moved
    exact moved.mono (Nat.le_add_right _ _) (Nat.le_add_right _ _)
  · rw [done] at moved
    exact moved.trans (tail value middle done)

theorem bind (head : Moves oracle asks items questions first)
    (tail : ∀ value, Moves oracle asks items' questions' (next value)) :
    Moves oracle asks (items + items') (questions + questions') (first >>= next) :=
  fun _ => head.andThen fun value middle _ => tail value middle

theorem look (head : Moves oracle asks items questions first) (tail : ∀ value, Looks (next value)) :
    Moves oracle asks items questions (first >>= next) := by
  intro before
  rw [Looks.final_bind tail]
  exact head before

/-- A step that adds and asks nothing, and what follows it, where more is known. -/
theorem followed (head : Moves oracle asks 0 0 first)
    (tail : ∀ value middle, first before = .ok value middle →
      Moved oracle asks items questions middle (final (next value middle))) :
    Moved oracle asks items questions before (final ((first >>= next) before)) :=
  (head.andThen tail).mono (Nat.le_of_eq (Nat.zero_add _)) (Nat.le_of_eq (Nat.zero_add _))

theorem seq (head : Moves oracle asks 0 0 first)
    (tail : ∀ value, Moves oracle asks items questions (next value)) :
    Moves oracle asks items questions (first >>= next) :=
  fun _ => head.followed fun value middle _ => tail value middle

theorem ite {condition : Prop} [Decidable condition] {first second : Machine α}
    (holding : Moves oracle asks items questions first)
    (failing : Moves oracle asks items questions second) :
    Moves oracle asks items questions (if condition then first else second) := by
  split
  · exact holding
  · exact failing

end Moves

end Rules

namespace Machine

section Steps

variable {oracle : Oracle} {asks : Query → Prop}

theorem ensure_looks (condition : Bool) (error : ScriptError) : Looks (ensure condition error) :=
  Looks.check condition error

theorem ofExcept_looks {α : Type} (result : Except ScriptError α) : Looks (ofExcept result) := by
  cases result with
  | ok value => exact Looks.pure value
  | error error => exact Looks.throw error

private theorem orShort_looks {α : Type} (found : Option α) : Looks (orShort found) := by
  cases found with
  | some value => exact Looks.pure value
  | none => exact Looks.throw _

theorem require_looks (n : Nat) : Looks (require n) :=
  Looks.get.bind fun _ => ensure_looks _ _

theorem limit_looks : Looks limit := Looks.get.bind fun _ => ensure_looks _ _

theorem peek_looks (depth : Nat) : Looks (peek depth) :=
  Looks.get.bind fun _ => orShort_looks _

private theorem number_looks (ctx : Context) (size : Nat) (item : Bytes) : Looks (number ctx size item) := by
  unfold number
  cases Number.operand size (ctx.flags.has .minimalData) item with
  | ok n => exact Looks.pure n
  | error error => exact Looks.throw _

theorem peekNumber_looks (ctx : Context) (depth size : Nat) : Looks (peekNumber ctx depth size) :=
  (peek_looks depth).bind fun item => number_looks ctx size item

theorem reservedNothing_looks (ctx : Context) : Looks (reservedNothing ctx) := ensure_looks _ _

theorem charge_final (n : Nat) (before : State) :
    final (charge n before) = { before with opCount := before.opCount + n } :=
  ensure_looks _ _ _

theorem push_moves (item : Bytes) : Moves oracle asks 1 0 (push item) :=
  fun before => Moved.silent (Nat.le_refl (before.stack.length + 1)) rfl rfl

private theorem setFlow_moves (flow : List Bool) : Moves oracle asks 0 0 (setFlow flow) :=
  fun _ => Moved.silent (Nat.le_refl _) rfl rfl

theorem pop_moves : Moves oracle asks 0 0 pop := by
  intro before
  cases top : before.stack with
  | nil =>
    rw [pop_nil top]
    exact Moved.refl before
  | cons item rest =>
    rw [pop_cons top]
    have shorter : rest.length ≤ before.stack.length := by
      rw [top]
      exact Nat.le_succ _
    exact Moved.silent shorter rfl rfl

theorem popMany_moves (n : Nat) : Moves oracle asks 0 0 (popMany n) := by
  induction n with
  | zero => exact (Looks.pure []).moves
  | succ n ih => exact pop_moves.seq fun item => ih.seq fun others => (Looks.pure _).moves

theorem popNumber_moves (ctx : Context) : Moves oracle asks 0 0 (popNumber ctx) :=
  pop_moves.seq fun item => (number_looks ctx _ item).moves

theorem popTwo_moves (ctx : Context) : Moves oracle asks 0 0 (popTwo ctx) :=
  (require_looks 2).seq fun _ => (popNumber_moves ctx).seq fun _ =>
    (popNumber_moves ctx).seq fun _ => (Looks.pure _).moves

theorem conclude_moves (ending : Ending) (error : ScriptError) (truth : Bool) :
    Moves oracle asks 1 0 (conclude ending error truth) := by
  cases ending with
  | yield => exact push_moves _
  | demand => exact (ensure_looks truth error).moves

theorem ask_moves {ctx : Context} {query : Query} (fine : asks query) :
    Moves ctx.oracle asks 0 1 (ask ctx query) :=
  fun _ => ⟨Nat.le_refl _,rfl,[query],rfl,Nat.le_refl _,by simpa using fine⟩

end Steps

section Operations

variable {oracle : Oracle} {asks : Query → Prop}

theorem branch_moves (ctx : Context) (negated : Bool) : Moves oracle asks 0 0 (branch ctx negated) :=
  Looks.get.seq fun _ => Looks.get.seq fun _ =>
    Moves.ite (pop_moves.seq fun _ => (ensure_looks _ _).seq fun _ => setFlow_moves _)
      (setFlow_moves _)

theorem otherwise_moves : Moves oracle asks 0 0 otherwise := by
  refine Looks.get.seq fun before => ?_
  cases before.flow with
  | nil => exact (Looks.throw _).moves
  | cons taken outer => exact setFlow_moves _

theorem endBranch_moves : Moves oracle asks 0 0 endBranch := by
  refine Looks.get.seq fun before => ?_
  cases before.flow with
  | nil => exact (Looks.throw _).moves
  | cons taken outer => exact setFlow_moves _

theorem verify_moves : Moves oracle asks 0 0 verify :=
  (peek_looks 0).seq fun _ => (ensure_looks _ _).seq fun _ => pop_moves.seq fun _ =>
    (Looks.pure ()).moves

theorem toAlt_moves : Moves oracle asks 0 0 toAlt :=
  pop_moves.seq fun _ _ => Moved.silent (Nat.le_refl _) rfl rfl

theorem fromAlt_moves : Moves oracle asks 1 0 fromAlt := by
  refine Looks.get.seq fun before => ?_
  cases before.alt with
  | nil => exact (Looks.throw _).moves
  | cons item rest =>
    refine Moves.seq (fun middle => ?_) fun _ => push_moves item
    exact Moved.silent (Nat.le_refl _) rfl rfl

private theorem length_rearrange?_le {move : Shuffle} {stack moved : Stack}
    (found : move.rearrange? stack = some moved) : moved.length ≤ stack.length + 3 := by
  unfold Shuffle.rearrange? at found
  split at found
  all_goals cases found
  all_goals simp only [List.length_cons]; omega

theorem shuffle_moves (move : Shuffle) : Moves oracle asks 3 0 (shuffle move) := by
  intro before
  refine Looks.get.followed fun state looked => ?_
  cases looked
  refine (orShort_looks _).followed fun moved arranged => ?_
  have found := (orShort_success_iff.mp arranged).1
  exact Moved.silent (length_rearrange?_le found) rfl rfl

theorem dupIfTrue_moves : Moves oracle asks 1 0 dupIfTrue :=
  (peek_looks 0).seq fun item => Moves.ite (push_moves item) (Looks.pure ()).moves

theorem fetch_moves (ctx : Context) (removed : Bool) : Moves oracle asks 1 0 (fetch ctx removed) := by
  refine (require_looks 2).seq fun _ => (popNumber_moves ctx).seq fun n => ?_
  refine (ensure_looks _ _).seq fun _ => Moves.ite ?_ ((peek_looks _).seq push_moves)
  intro before
  refine Looks.get.followed fun state looked => ?_
  cases looked
  refine (orShort_looks _).followed fun found taken => ?_
  have taken := (orShort_success_iff.mp taken).1
  simp only [Stack.remove?,Option.map_eq_some_iff] at taken
  obtain ⟨item,_,rfl⟩ := taken
  exact Moved.silent (Nat.succ_le_succ (List.length_eraseIdx_le _ _)) rfl rfl

theorem equal_moves (ending : Ending) : Moves oracle asks 1 0 (equal ending) :=
  (require_looks 2).seq fun _ => pop_moves.seq fun _ => pop_moves.seq fun _ => conclude_moves _ _ _

theorem within_moves (ctx : Context) : Moves oracle asks 1 0 (within ctx) :=
  (require_looks 3).seq fun _ => (popNumber_moves ctx).seq fun _ => (popNumber_moves ctx).seq fun _ =>
    (popNumber_moves ctx).seq fun _ => push_moves _

theorem setColor_moves (ctx : Context) : Moves oracle asks 0 0 (setColor ctx) := by
  refine (require_looks 1).seq fun _ => Looks.get.seq fun _ => (ensure_looks _ _).seq fun _ => ?_
  refine (ensure_looks _ _).seq fun _ => Looks.get.seq fun _ => (ensure_looks _ _).seq fun _ => ?_
  refine (peek_looks 0).seq fun item => ?_
  cases ColorId.ofBytes item with
  | error fault => exact (Looks.throw _).moves
  | ok color =>
    exact pop_moves.seq fun _ _ => Moved.silent (Nat.le_refl _) rfl rfl

end Operations

theorem run_final (ctx : Context) (before : State) :
    final (run ctx before) =
      if ctx.script.size ≤ Script.maxSize then final (advanceAll ctx 0 ctx.script before)
      else before := by
  rw [run]
  by_cases size : ctx.script.size ≤ Script.maxSize
  · rw [decide_eq_true size,if_pos size]
    have passed : ensure true .scriptSize before = .ok () before := rfl
    rw [bind_of_success passed,Looks.final_bind fun _ => Looks.get.bind fun _ => ensure_looks _ _]
  · rw [decide_eq_false size,if_neg size]
    rfl

end Machine

end ColorScript
