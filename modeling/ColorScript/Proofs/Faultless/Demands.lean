import ColorScript.Proofs.Faultless.Session

/-! Demands of a session, one after the other. A verification asserts where it asks for a clean stack
without the rule for script digests, but only once both scripts have accepted; no other demand faults,
and each leaves in memory what the next one needs. -/
namespace ColorScript

namespace Session

/-- A verification comes to its assertion, and the flags do not meet it: nothing has failed before. -/
structure Asserts (rules : Rules) (unlocking locking : Script) : Prop where
  clean : rules.flags.has .cleanStack = true
  unknown : rules.flags.has .p2sh = false
  pushes : rules.flags.has .sigPushOnly = true → unlocking.isPushOnly = true
  accepts : ∃ unlocked locked, (unlockingRun rules unlocking).outcome = .ok () unlocked ∧
    (lockingRun rules locking unlocked).outcome = .ok () locked ∧
    (locked.stack.peek? 0).any Number.isTrue = true

variable {rules : Rules} {unlocking locking : Script} {before after : Session}

private theorem unlock_fails (rules : Rules) (unlocking locking : Script) : Fails (unlock rules unlocking locking) :=
  (ensure_fails _ _).bind fun _ _ => (evaluate_fails _ _ _).bind fun _ _ => Keeps.get.bind fun _ _ =>
    (evaluate_fails _ _ _).bind fun _ _ => requireTrueTop_fails.bind fun _ _ => Keeps.pure trivial

private theorem redeem_fails (rules : Rules) (unlocking locking : Script) (unlocked : Stack) :
    Fails (redeem rules unlocking locking unlocked) :=
  Keeps.ite (fun _ => (ensure_fails _ _).bind fun _ _ => evaluateRedeem_fails _ _) fun _ => Keeps.pure trivial

private theorem tidy_refused_iff : tidy rules before = .error .cleanStackWithoutP2SH after ↔
    rules.flags.has .cleanStack = true ∧ rules.flags.has .p2sh = false ∧ after = before := by
  unfold tidy requireCleanStack
  cases rules.flags.has .cleanStack with
  | false => simp [pure,EStateM.pure]
  | true =>
    cases rules.flags.has .p2sh with
    | false =>
      constructor
      · intro refused
        cases refused
        exact ⟨rfl,rfl,rfl⟩
      · intro holds
        obtain ⟨_,_,rfl⟩ := holds
        rfl
    | true =>
      constructor
      · intro refused
        have fails : Fails (do ensure ((← get).stack.length = 1) .cleanStack) :=
          Keeps.get.bind fun _ _ => ensure_fails _ _
        exact absurd ⟨after,refused⟩ (fails.passes before)
      · intro holds
        cases holds.2.1

theorem unlock_fresh_iff (fresh : before.start = { stack := [] }) :
    (∃ unlocked after, unlock rules unlocking locking before = .ok unlocked after) ↔
      (rules.flags.has .sigPushOnly = true → unlocking.isPushOnly = true) ∧
      ∃ unlocked locked, (unlockingRun rules unlocking).outcome = .ok () unlocked ∧
        (lockingRun rules locking unlocked).outcome = .ok () locked ∧
        (locked.stack.peek? 0).any Number.isTrue = true := by
  constructor
  · intro accepted
    obtain ⟨_,_,accepted⟩ := accepted
    obtain ⟨pushes,_,opened,_,closed,truthy⟩ := unlock_success_iff.mp accepted
    obtain ⟨unlocked,ran,rfl⟩ := evaluate_success_iff.mp opened
    obtain ⟨locked,ran',rfl⟩ := evaluate_success_iff.mp closed
    rw [fresh] at ran
    exact ⟨pushes,unlocked,locked,ran,ran',truthy⟩
  · intro holds
    obtain ⟨pushes,unlocked,locked,ran,ran',truthy⟩ := holds
    rw [Run.outcome,unlockingRun,← fresh] at ran
    exact ⟨_,_,unlock_success_iff.mpr ⟨pushes,_,evaluate_success_iff.mpr ⟨unlocked,ran,rfl⟩,rfl,
      evaluate_success_iff.mpr ⟨locked,ran',rfl⟩,truthy⟩⟩

private theorem satisfy_refused_iff (fresh : before.start = { stack := [] }) :
    (∃ after, satisfy rules unlocking locking before = .error .cleanStackWithoutP2SH after) ↔
      Asserts rules unlocking locking := by
  rw [satisfy_eq]
  constructor
  · intro refused
    obtain ⟨after,refused⟩ := refused
    rcases bind_failure refused with failed | ⟨unlocked,middle,accepted,refused⟩
    · exact absurd ⟨after,failed⟩ ((unlock_fails rules unlocking locking).passes before)
    rcases bind_failure refused with failed | ⟨_,last,_,refused⟩
    · exact absurd ⟨after,failed⟩ ((redeem_fails rules unlocking locking unlocked).passes middle)
    obtain ⟨clean,unknown,_⟩ := tidy_refused_iff.mp refused
    obtain ⟨pushes,accepts⟩ := (unlock_fresh_iff fresh).mp ⟨unlocked,middle,accepted⟩
    exact ⟨clean,unknown,pushes,accepts⟩
  · intro asserts
    obtain ⟨unlocked,after,accepted⟩ := (unlock_fresh_iff fresh).mpr ⟨asserts.pushes,asserts.accepts⟩
    -- Without the rule for script digests there is nothing between the two looks at the stack.
    have idle : redeem rules unlocking locking unlocked = pure () := by
      rw [redeem,asserts.unknown]
      rfl
    refine ⟨after,?_⟩
    rw [bind_of_success accepted,idle,pure_bind]
    exact tidy_refused_iff.mpr ⟨asserts.clean,asserts.unknown,rfl⟩

theorem verify_refused_iff :
    (∃ after, verify rules unlocking locking before = .error .cleanStackWithoutP2SH after) ↔
      Asserts rules unlocking locking := by
  have satisfied : (∃ after, satisfy rules unlocking locking
      { calls := before.calls, journal := before.journal } = .error .cleanStackWithoutP2SH after) ↔
      Asserts rules unlocking locking := satisfy_refused_iff rfl
  rw [← satisfied]
  unfold verify
  cases satisfy rules unlocking locking { calls := before.calls, journal := before.journal } with
  | ok done final => simp
  | error refusal final => cases refusal <;> simp

def Demand.Addressable : Demand → Prop
  | .request (.evaluate _ script _) => script.Addressable
  | .request (.setStack stack) => ∀ item ∈ stack, item.Addressable
  | .verify _ unlocking locking => unlocking.Addressable ∧ locking.Addressable

def Demand.Asserts : Demand → Prop
  | .request _ => False
  | .verify rules unlocking locking => Session.Asserts rules unlocking locking

private theorem setStack_fails (stack : Stack) : Fails (setStack stack) := Keeps.modify fun _ _ => trivial

private theorem perform_refused_iff (demand : Demand) :
    (∃ after, demand.perform before = .error .cleanStackWithoutP2SH after) ↔ demand.Asserts := by
  cases demand with
  | verify rules unlocking locking => exact verify_refused_iff
  | request asked =>
    have fails : Fails asked.perform := by
      cases asked with
      | evaluate rules script redeem => exact evaluate_fails rules script redeem
      | setStack stack => exact setStack_fails stack
    exact ⟨fun refused => absurd refused (fails.passes before),False.elim⟩

private theorem verify_memory (rules : Rules) (unlocking locking : Script) (before : Session) :
    (∀ item ∈ (final (verify rules unlocking locking before)).stack, item.Addressable) ∧
      (final (verify rules unlocking locking before)).stack.length ≤ Machine.maxItems + 3 := by
  have limits := runs_withinLimits (runs_phases rules unlocking locking)
  rw [(verify_follows rules unlocking locking before).stack]
  refine last_stack (motive := fun stack => (∀ item ∈ stack, item.Addressable) ∧
    stack.length ≤ Machine.maxItems + 3) ⟨nofun,Nat.zero_le _⟩ fun run member => ?_
  have short := (limits run member).short.1
  exact ⟨fun item left => Nat.lt_of_le_of_lt (short item left) (by decide),(limits run member).depth⟩

-- The step lemma for the items of a session.
private theorem perform_items {demand : Demand} (memory : before.Addressable) (fits : demand.Addressable) :
    ∀ item ∈ (final (demand.perform before)).stack, item.Addressable := by
  match demand with
  | .request (.evaluate rules script redeem) =>
    change ∀ item ∈ (final (evaluate rules script redeem before)).stack, item.Addressable
    rw [evaluate_final]
    exact (Machine.run_memory _ memory.start).1
  | .request (.setStack stack) => exact fits
  | .verify rules unlocking locking => exact (verify_memory rules unlocking locking before).1

private theorem perform_stack {demand : Demand} {bound : Nat} (memory : before.Addressable)
    (limit : Machine.maxItems ≤ bound) (stack : before.stack.length ≤ bound)
    (brings : ∀ stack, demand = .request (.setStack stack) → stack.length ≤ bound) :
    (final (demand.perform before)).stack.length ≤ bound + 3 := by
  match demand with
  | .request (.evaluate rules script redeem) =>
    change (final (evaluate rules script redeem before)).stack.length ≤ bound + 3
    rw [evaluate_final]
    exact Nat.le_trans (Machine.run_memory _ memory.start).2
      (Nat.add_le_add_right (Nat.max_le.mpr ⟨stack,limit⟩) 3)
  | .request (.setStack items) => exact Nat.le_add_right_of_le (brings items rfl)
  | .verify rules unlocking locking =>
    exact Nat.le_trans (verify_memory rules unlocking locking before).2 (Nat.add_le_add_right limit 3)

/-- The stacks of the session fit in memory before each of the demands. -/
def Fits (session : Session) (demands : List Demand) : Prop :=
  ∀ passed, passed <+: demands → (session.serve passed).stack.length < 2 ^ 63

/-- A session and the demands on it fit in memory. -/
structure Room (session : Session) (demands : List Demand) : Prop where
  items : ∀ item ∈ session.stack, item.Addressable
  fits : ∀ demand ∈ demands, demand.Addressable
  memory : session.Fits demands

private theorem Room.addressable {demands : List Demand} (room : Room before demands) : before.Addressable :=
  ⟨room.memory [] List.nil_prefix,room.items⟩

theorem Room.tail {demand : Demand} {rest : List Demand} (room : Room before (demand :: rest)) :
    demand.Addressable ∧ Room (final (demand.perform before)) rest := by
  have fits := List.forall_mem_cons.mp room.fits
  refine ⟨fits.1,perform_items room.addressable fits.1,fits.2,fun passed opens => ?_⟩
  exact room.memory (demand :: passed) (List.cons_prefix_cons.mpr ⟨rfl,opens⟩)

/-- There is memory for a few demands, as long as three items for each of them fit in it. -/
theorem fits_of_few {demands : List Demand} {bound : Nat} (items : ∀ item ∈ before.stack, item.Addressable)
    (fits : ∀ demand ∈ demands, demand.Addressable) (limit : Machine.maxItems ≤ bound)
    (stack : before.stack.length ≤ bound)
    (brings : ∀ stack, .request (.setStack stack) ∈ demands → stack.length ≤ bound)
    (room : bound + 3 * demands.length < 2 ^ 63) : Fits before demands := by
  induction demands generalizing before bound with
  | nil =>
    intro passed none
    rw [List.prefix_nil.mp none]
    exact Nat.lt_of_le_of_lt stack room
  | cons demand rest ih =>
    intro passed others
    rw [List.length_cons] at room
    have here : before.Addressable := ⟨by omega,items⟩
    cases passed with
    | nil => exact here.stack
    | cons first passed =>
      obtain ⟨rfl,opens⟩ := List.cons_prefix_cons.mp others
      have fits := List.forall_mem_cons.mp fits
      have few := perform_stack here limit stack fun stack same => brings stack (same ▸ List.mem_cons_self)
      refine ih (perform_items here fits.1) fits.2 (Nat.le_add_right_of_le limit) few ?_ (by omega) passed opens
      exact fun stack later => Nat.le_add_right_of_le (brings stack (List.mem_cons_of_mem _ later))

end Session

namespace GuardedSession

open Session (Demand Asserts Room)

variable {rules : Rules} {unlocking locking : Script} {before : Session}

theorem verify_settles (fits : unlocking.Addressable) (fits' : locking.Addressable) :
    Settles (verify rules unlocking locking) (Session.verify rules unlocking locking) before := by
  have fresh : Session.Addressable { calls := before.calls, journal := before.journal } :=
    ⟨Nat.two_pow_pos 63,nofun⟩
  have satisfied : Settles (satisfy rules unlocking locking) (Session.satisfy rules unlocking locking)
      { calls := before.calls, journal := before.journal } := satisfy_settles fits fits' fresh
  unfold Settles verify Session.verify
  rw [show satisfy rules unlocking locking _ = _ from satisfied]
  cases Session.satisfy rules unlocking locking { calls := before.calls, journal := before.journal } with
  | ok done after => rfl
  | error refusal after => cases refusal <;> rfl

private theorem perform_settles {demand : Demand} (memory : before.Addressable) (fits : demand.Addressable) :
    Settles (perform demand) demand.perform before := by
  match demand with
  | .request (.evaluate rules script redeem) =>
    exact .of_agrees (evaluate_agrees fits memory redeem) (Session.evaluate_fails _ _ _)
  | .request (.setStack stack) => exact .of_agrees (Guarded.Agrees.lift _ _) (Session.setStack_fails stack)
  | .verify rules unlocking locking => exact verify_settles fits.1 fits.2

theorem perform_eq {demand : Demand} (memory : before.Addressable) (fits : demand.Addressable)
    (passes : ¬ demand.Asserts) : perform demand before = .ok (demand.perform before) :=
  (perform_settles memory fits).trans (Session.settle_eq_ok (mt (Session.perform_refused_iff demand).mp passes))

theorem perform_asserts {demand : Demand} (memory : before.Addressable) (fits : demand.Addressable)
    (asserts : demand.Asserts) : perform demand before = .error .assertion :=
  (perform_settles memory fits).trans
    (Session.settle_eq_error ((Session.perform_refused_iff demand).mpr asserts))

private theorem serve_cons {demand : Demand} {rest : List Demand} (room : Room before (demand :: rest))
    (passes : ¬ demand.Asserts) :
    serve before (demand :: rest) = serve (final (demand.perform before)) rest := by
  rw [serve,List.foldlM_cons,perform_eq room.addressable room.tail.1 passes]
  rfl

theorem serve_eq {demands : List Demand} (room : Room before demands)
    (passes : ∀ demand ∈ demands, ¬ demand.Asserts) : serve before demands = .ok (before.serve demands) := by
  induction demands generalizing before with
  | nil => rfl
  | cons demand rest ih =>
    have passes := List.forall_mem_cons.mp passes
    rw [serve_cons room passes.1]
    exact ih room.tail.2 passes.2

theorem serve_asserts {demands : List Demand} (room : Room before demands)
    (asserts : ∃ demand ∈ demands, demand.Asserts) : serve before demands = .error .assertion := by
  induction demands generalizing before with
  | nil => simp at asserts
  | cons demand rest ih =>
    by_cases first : demand.Asserts
    · rw [serve,List.foldlM_cons,perform_asserts room.addressable room.tail.1 first]
      rfl
    · rw [serve_cons room first]
      obtain ⟨other,member,asserts⟩ := asserts
      rcases List.mem_cons.mp member with rfl | later
      · exact absurd asserts first
      · exact ih room.tail.2 ⟨other,later,asserts⟩

end GuardedSession

end ColorScript
