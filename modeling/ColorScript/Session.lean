import ColorScript.Journal

/-! Sessions: a stack and a colour that several runs share, and the verification that an
unlocking script satisfies a locking script. -/
namespace ColorScript

/-- What is kept from one run to the next. -/
structure Session where
  stack : Stack := []
  color : Option ColorId := none
  outcome : ScriptError := .ok
  calls : List Call := []
  journal : List Entry := []

/-- Why a verification did not accept: the scripts failed, or the flags ask for a clean
stack without the rule for script digests, which nothing can satisfy. -/
inductive Refusal where
  | failed (error : ScriptError)
  | cleanStackWithoutP2SH
deriving DecidableEq

namespace Session

abbrev Action := EStateM Refusal Session

def start (session : Session) : State := { stack := session.stack, color := session.color }

def absorb (session : Session) (entries : List Entry) (state : State) : Session :=
  { session with
    stack := state.stack
    color := state.color
    calls := session.calls ++ state.calls
    journal := session.journal ++ entries }

/-- Runs a script on the stack of the session. Whether the top item is true is left to
the caller. -/
def evaluate (rules : Rules) (script : Script) (redeem : Bool) : Action Unit := fun session =>
  let ctx : Context := { rules with script, redeem }
  let entries := Journal.ofRun ctx session.start
  match Machine.run ctx session.start with
  | .ok _ state => .ok () (session.absorb entries state)
  | .error error state => .error (.failed error) (session.absorb entries state)

def ensure (condition : Bool) (error : ScriptError) : Action Unit :=
  if condition then pure () else throw (.failed error)

def requireTrueTop : Action Unit := do
  ensure (((← get).stack.peek? 0).any Number.isTrue) .evalFalse

/-- Runs the script whose bytes are on top of a stack on the rest of that stack. -/
def evaluateRedeem (rules : Rules) (stack : Stack) : Action Unit := do
  modify fun session => { session with stack }
  match stack with
  | [] => throw (.failed .invalidStackOperation)
  | bytes :: rest =>
    let script := Script.parse bytes
    modify fun session =>
      { session with stack := rest, journal := session.journal ++ [.redeeming script] }
    evaluate rules script true
    requireTrueTop

def paysToScript (script : Script) : Bool := script.isP2SH || script.isColoredP2SH

/-- Fails unless one item is left. Asking for that without the rule for script digests is
refused whatever is left. -/
def requireCleanStack (rules : Rules) : Action Unit := do
  if rules.flags.has .p2sh then ensure ((← get).stack.length = 1) .cleanStack
  else throw .cleanStackWithoutP2SH

def satisfy (rules : Rules) (unlocking locking : Script) : Action Unit := do
  ensure (!rules.flags.has .sigPushOnly || unlocking.isPushOnly) .sigPushOnly
  evaluate rules unlocking false
  let unlocked := (← get).stack
  evaluate rules locking false
  requireTrueTop
  if rules.flags.has .p2sh && paysToScript locking then
    ensure unlocking.isPushOnly .sigPushOnly
    evaluateRedeem rules unlocked
  if rules.flags.has .cleanStack then requireCleanStack rules

/-- Verifies that an unlocking script satisfies a locking script. Stack, colour and
outcome of earlier runs are dropped first. -/
def verify (rules : Rules) (unlocking locking : Script) : Action Unit := fun session =>
  match satisfy rules unlocking locking
      { calls := session.calls, journal := session.journal } with
  | .ok _ after => .ok () { after with outcome := .ok }
  | .error (.failed error) after => .error (.failed error) { after with outcome := error }
  | .error refusal after => .error refusal after

end Session

end ColorScript
