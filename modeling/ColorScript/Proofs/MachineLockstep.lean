import ColorScript.Proofs.Lockstep
import ColorScript.Proofs.Relaxation

/-! The steps of the machine in lock step. The second run has laxer rules, may have further
items below its stack, and need not agree on colours or on the questions it asks. -/
namespace ColorScript

/-- How the states of two runs are compared: the items that lie below the stack of the second
one, and whether colours and questions are compared. -/
structure View where
  base : Stack := []
  colors : Bool := true
  calls : Bool := false

/-- Two states that are equal as far as a view looks. -/
structure View.Alike (view : View) (first second : State) : Prop where
  stack : second.stack = first.stack ++ view.base
  alt : second.alt = first.alt
  flow : second.flow = first.flow
  opCount : second.opCount = first.opCount
  codeStart : second.codeStart = first.codeStart
  color : view.colors = true → second.color = first.color
  calls : view.calls = true → second.calls = first.calls

/-- Two runs of one script that a view can follow: the second one has laxer rules, colours
are looked at wherever a colour can be set, and questions only under equal rules. -/
structure View.Relaxes (view : View) (strict lax : Context) : Prop where
  rules : Rules.Relaxed strict.toRules lax.toRules
  script : lax.script = strict.script
  redeem : lax.redeem = strict.redeem
  colors : strict.redeem = false → view.colors = true
  calls : view.calls = true → lax.toRules = strict.toRules

namespace Machine

variable {view : View} {strict lax : Context}

theorem ensure_lockstep {states : State → State → Prop} (condition condition' : Bool)
    (error error' : ScriptError) (implied : condition = true → condition' = true) :
    Lockstep states Eq (ensure condition error) (ensure condition' error') :=
  Lockstep.check _ _ implied

theorem guard_lockstep {states : State → State → Prop} {α β : Type} {values : α → β → Prop}
    {condition condition' : Bool} {error error' : ScriptError} {next : Unit → Machine α}
    {next' : Unit → Machine β} (implied : condition = true → condition' = true)
    (tail : condition = true → Lockstep states values (next ()) (next' ())) :
    Lockstep states values (ensure condition error >>= next) (ensure condition' error' >>= next') := by
  cases condition with
  | false =>
    intro before before' result after alike ok
    cases ok
  | true =>
    rw [implied rfl]
    exact tail rfl

theorem ofExcept_lockstep {states : State → State → Prop} {α : Type}
    (result result' : Except ScriptError α)
    (implied : ∀ value, result = .ok value → result' = .ok value) :
    Lockstep states (fun value value' => value = value' ∧ result = .ok value)
      (ofExcept result) (ofExcept result') := by
  cases result with
  | error error => exact Lockstep.throw error _
  | ok value =>
    rw [implied value rfl]
    exact Lockstep.pure ⟨rfl,rfl⟩

theorem orShort_lockstep {states : State → State → Prop} {α β : Type} {values : α → β → Prop}
    (found : Option α) (found' : Option β)
    (implied : ∀ value, found = some value → ∃ value', found' = some value' ∧ values value value') :
    Lockstep states values (orShort found) (orShort found') := by
  cases found with
  | none => exact Lockstep.throw _ _
  | some value =>
    obtain ⟨value',same,related⟩ := implied value rfl
    rw [same]
    exact Lockstep.pure related

theorem require_lockstep (n : Nat) : Lockstep view.Alike Eq (require n) (require n) := by
  apply Lockstep.get.bind
  intro before before' alike
  apply ensure_lockstep
  simp only [decide_eq_true_eq,alike.stack,List.length_append]
  omega

theorem setStack_lockstep (stack stack' : Stack) (below : stack' = stack ++ view.base) :
    Lockstep view.Alike Eq (setStack stack) (setStack stack') := by
  apply Lockstep.modify
  intro before before' alike
  exact { alike with stack := below }

theorem push_lockstep (item : Bytes) : Lockstep view.Alike Eq (push item) (push item) := by
  apply Lockstep.get.bind
  intro before before' alike
  apply setStack_lockstep
  rw [alike.stack,List.cons_append]

private theorem remove?_append {stack : Stack} {depth : Nat} {item : Bytes} {rest : Stack}
    (found : stack.remove? depth = some (item,rest)) (base : Stack) :
    (stack ++ base : Stack).remove? depth = some (item,rest ++ base) := by
  simp only [Stack.remove?,Option.map_eq_some_iff,Prod.mk.injEq] at found ⊢
  obtain ⟨item,found,rfl,rfl⟩ := found
  have bound : depth < stack.length := (List.getElem?_eq_some_iff.mp found).1
  exact ⟨item,by rw [List.getElem?_append_left bound]; exact found,rfl,
    List.eraseIdx_append_of_lt_length bound base⟩

theorem remove_lockstep {α β : Type} {values : α → β → Prop} (depth : Nat)
    {next : Bytes × Stack → Machine α} {next' : Bytes × Stack → Machine β}
    (tail : ∀ item rest, Lockstep view.Alike values (next (item,rest)) (next' (item,rest ++ view.base))) :
    Lockstep view.Alike values
      (do next (← orShort ((← get).stack.remove? depth)))
      (do next' (← orShort ((← get).stack.remove? depth))) := by
  apply Lockstep.get.bind
  intro before before' alike
  have head : Lockstep view.Alike (fun found found' => found' = (found.1,found.2 ++ view.base))
      (orShort (before.stack.remove? depth)) (orShort (before'.stack.remove? depth)) := by
    apply orShort_lockstep
    rintro ⟨item,rest⟩ found
    exact ⟨_,by rw [alike.stack]; exact remove?_append found view.base,rfl⟩
  refine head.bind ?_
  rintro ⟨item,rest⟩ _ rfl
  exact tail item rest

theorem pop_lockstep : Lockstep view.Alike Eq pop pop := by
  apply remove_lockstep
  intro item rest
  exact (setStack_lockstep _ _ rfl).seq fun _ => Lockstep.pure rfl

theorem popMany_lockstep (n : Nat) : Lockstep view.Alike Eq (popMany n) (popMany n) := by
  induction n with
  | zero => exact Lockstep.pure rfl
  | succ n ih => exact pop_lockstep.seq fun item => ih.seq fun others => Lockstep.pure rfl

theorem peek_lockstep (depth : Nat) : Lockstep view.Alike Eq (peek depth) (peek depth) := by
  apply Lockstep.get.bind
  intro before before' alike
  apply orShort_lockstep
  intro item found
  have bound : depth < before.stack.length := (List.getElem?_eq_some_iff.mp found).1
  refine ⟨item,?_,rfl⟩
  rw [alike.stack,Stack.peek?,List.getElem?_append_left bound]
  exact found

private theorem number_lockstep (relaxes : view.Relaxes strict lax) (size : Nat) (item : Bytes) :
    Lockstep view.Alike Eq (number strict size item) (number lax size item) := by
  unfold number
  cases read : Number.operand size (strict.flags.has .minimalData) item with
  | error error => exact Lockstep.throw _ _
  | ok n =>
    rw [Number.operand_lax size _ _ item n (relaxes.rules.flags _) read]
    exact Lockstep.pure rfl

theorem popNumber_lockstep (relaxes : view.Relaxes strict lax) :
    Lockstep view.Alike Eq (popNumber strict) (popNumber lax) :=
  pop_lockstep.seq fun item => number_lockstep relaxes _ item

theorem peekNumber_lockstep (relaxes : view.Relaxes strict lax) (depth size : Nat) :
    Lockstep view.Alike Eq (peekNumber strict depth size) (peekNumber lax depth size) :=
  (peek_lockstep depth).seq fun item => number_lockstep relaxes size item

theorem charge_lockstep (n : Nat) : Lockstep view.Alike Eq (charge n) (charge n) := by
  have counted : Lockstep view.Alike Eq
      (modify fun state : State => { state with opCount := state.opCount + n } : Machine Unit)
      (modify fun state : State => { state with opCount := state.opCount + n }) := by
    apply Lockstep.modify
    intro before before' alike
    exact { alike with opCount := congrArg (· + n) alike.opCount }
  refine counted.seq fun _ => Lockstep.get.bind ?_
  intro before before' alike
  apply ensure_lockstep
  rw [alike.opCount]
  exact id

/-- Both runs ask the same question. The answers need not be the same. -/
theorem ask_lockstep (relaxes : view.Relaxes strict lax) (query : Query) :
    Lockstep view.Alike
      (fun answer answer' => answer = strict.oracle query ∧ answer' = lax.oracle query)
      (ask strict query) (ask lax query) := by
  have recorded : Lockstep view.Alike Eq
      (modify fun state : State =>
        { state with calls := state.calls ++ [⟨query,strict.oracle query⟩] } : Machine Unit)
      (modify fun state : State =>
        { state with calls := state.calls ++ [⟨query,lax.oracle query⟩] }) := by
    apply Lockstep.modify
    intro before before' alike
    refine { alike with calls := fun compared => ?_ }
    rw [alike.calls compared,relaxes.calls compared]
  exact recorded.seq fun _ => Lockstep.pure ⟨rfl,rfl⟩

theorem conclude_lockstep (ending : Ending) (error : ScriptError) (truth : Bool) :
    Lockstep view.Alike Eq (conclude ending error truth) (conclude ending error truth) := by
  cases ending with
  | yield => exact push_lockstep _
  | demand => exact ensure_lockstep _ _ _ _ id

theorem silent_lockstep {states : State → State → Prop} {α β γ : Type} {results : γ → β → Prop}
    {first : Machine α} {next : α → Machine γ} {second : Machine β}
    (head : Lockstep states (fun _ _ => True) first (pure ()))
    (tail : ∀ value, Lockstep states results (next value) second) :
    Lockstep states results (first >>= next) second := by
  rw [← pure_bind () fun _ => second]
  exact head.bind fun value _ _ => tail value

theorem ensure_silent {states : State → State → Prop} (condition : Bool) (error : ScriptError) :
    Lockstep states (fun _ _ => True) (ensure condition error) (pure ()) :=
  (ensure_lockstep condition true error error fun _ => rfl).weaken fun _ _ _ => trivial

private theorem orShort_silent {states : State → State → Prop} {α : Type} (found : Option α) :
    Lockstep states (fun _ _ => True) (orShort found) (pure ()) := by
  cases found with
  | none => exact Lockstep.throw _ _
  | some value => exact Lockstep.pure trivial

private theorem number_silent {states : State → State → Prop} (ctx : Context) (size : Nat) (item : Bytes) :
    Lockstep states (fun _ _ => True) (number ctx size item) (pure ()) := by
  unfold number
  cases Number.operand size (ctx.flags.has .minimalData) item with
  | error error => exact Lockstep.throw _ _
  | ok n => exact Lockstep.pure trivial

private theorem get_silent {states : State → State → Prop} :
    Lockstep states (fun _ _ => True) (get : Machine State) (pure ()) := by
  intro before before' value after alike ok
  cases ok
  exact ⟨(),before',rfl,trivial,alike⟩

theorem ofExcept_silent {states : State → State → Prop} {α : Type} (result : Except ScriptError α) :
    Lockstep states (fun _ _ => True) (ofExcept result) (pure ()) := by
  cases result with
  | error error => exact Lockstep.throw _ _
  | ok value => exact Lockstep.pure trivial

theorem peekNumber_silent {states : State → State → Prop} (ctx : Context) (depth size : Nat) :
    Lockstep states (fun _ _ => True) (peekNumber ctx depth size) (pure ()) := by
  refine silent_lockstep ?_ fun item => number_silent ctx size item
  exact silent_lockstep get_silent fun before => orShort_silent _

theorem ask_silent (uncompared : view.calls = false) (ctx : Context) (query : Query) :
    Lockstep view.Alike (fun _ _ => True) (ask ctx query) (pure ()) := by
  intro before before' answer after alike ok
  cases ok
  refine ⟨(),before',rfl,trivial,{ alike with calls := fun compared => ?_ }⟩
  rw [uncompared] at compared
  cases compared

end Machine

end ColorScript
