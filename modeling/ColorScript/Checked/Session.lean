import ColorScript.Checked.Machine
import ColorScript.Session.Requests

/-! Sessions over machine words. The lines of a journal are written along with each run, and a
verification that asks for a clean stack asserts that it knows the rule for script digests. -/
namespace ColorScript

namespace Checked

def scriptText (script : Script) : Checked String := do
  pure (" ".intercalate (← script.mapM text))

open Text in
def line : Entry → Checked String
  | .executing place chunk depth => do
    let chunk ← text chunk
    pure ("TRACE: chunk " ++ Decimal.text place ++ ": " ++ chunk ++ " (stack depth "
      ++ Decimal.text depth ++ ")")
  | .failed place chunk error => do
    let chunk ← text chunk
    pure ("DEBUG: script failed at chunk " ++ Decimal.text place ++ " (" ++ chunk ++ "): "
      ++ error.name)
  | .tooLarge size => pure ("DEBUG: script rejected: " ++ Decimal.text size ++ " bytes")
  | .openBranches count =>
    pure ("DEBUG: script ended with " ++ Decimal.text count ++ " open conditionals")
  | .redeeming script => do
    let script ← scriptText script
    pure ("TRACE: evaluating redeem script " ++ script)

def paysToScript (script : Script) : Checked Bool :=
  if script.isP2SH then pure true else isColoredP2SH script

end Checked

abbrev GuardedSession := Guarded Refusal Session

namespace GuardedSession

open Session (ensure)

def evaluate (rules : Rules) (script : Script) (redeem : Bool) : GuardedSession Unit := fun session => do
  let ctx : Context := { rules with script, redeem }
  let entries := Journal.ofRun ctx session.start
  let _ ← entries.mapM Checked.line
  match ← GuardedMachine.run ctx session.start with
  | .ok _ state => pure (.ok () (session.absorb entries state))
  | .error error state => pure (.error (.failed error) (session.absorb entries state))

def isTopTrue (stack : Stack) : Checked Bool := do
  match ← Checked.peek? stack 0 with
  | some top => Checked.isTrue top
  | none => pure false

def requireTrueTop : GuardedSession Unit := do
  let truth ← isTopTrue (← get).stack
  ensure truth .evalFalse

def evaluateRedeem (rules : Rules) (stack : Stack) : GuardedSession Unit := do
  modify fun session => { session with stack }
  match stack with
  | [] => (throw (.failed .invalidStackOperation) : Session.Action Unit)
  | bytes :: rest =>
    let script ← Checked.parse bytes
    let _ ← Checked.line (.redeeming script)
    modify fun session =>
      { session with stack := rest, journal := session.journal ++ [.redeeming script] }
    evaluate rules script true
    requireTrueTop

def requireCleanStack (rules : Rules) : GuardedSession Unit := do
  let _ ← (if rules.flags.has .p2sh then pure () else throw .assertion : Checked Unit)
  ensure ((← get).stack.length = 1) .cleanStack

def satisfy (rules : Rules) (unlocking locking : Script) : GuardedSession Unit := do
  ensure (!rules.flags.has .sigPushOnly || unlocking.isPushOnly) .sigPushOnly
  evaluate rules unlocking false
  let unlocked := (← get).stack
  evaluate rules locking false
  requireTrueTop
  let pays ← (if rules.flags.has .p2sh then Checked.paysToScript locking else pure false : Checked Bool)
  if pays then
    ensure unlocking.isPushOnly .sigPushOnly
    evaluateRedeem rules unlocked
  if rules.flags.has .cleanStack then requireCleanStack rules

def verify (rules : Rules) (unlocking locking : Script) : GuardedSession Unit := fun session => do
  match ← satisfy rules unlocking locking { calls := session.calls, journal := session.journal } with
  | .ok _ after => pure (.ok () { after with outcome := .ok })
  | .error (.failed error) after => pure (.error (.failed error) { after with outcome := error })
  | .error refusal after => pure (.error refusal after)

def perform : Session.Demand → GuardedSession Unit
  | .request (.evaluate rules script redeem) => evaluate rules script redeem
  | .request (.setStack stack) => Session.setStack stack
  | .verify rules unlocking locking => verify rules unlocking locking

/-- The session after some demands, whether they succeed or fail, unless one of them faults. -/
def serve (session : Session) (demands : List Session.Demand) : Checked Session :=
  demands.foldlM (fun session demand => do pure (final (← perform demand session))) session

end GuardedSession

end ColorScript
