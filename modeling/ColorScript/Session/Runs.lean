import ColorScript.Machine.Visit
import ColorScript.Session

/-! The runs that a verification makes: of the unlocking script, of the locking script, and of the
script of a script digest, each only after the one before has succeeded. -/
namespace ColorScript.Session

def unlockingRun (rules : Rules) (unlocking : Script) : Run :=
  ⟨{ rules with script := unlocking, redeem := false }, { stack := [] }⟩

/-- The locking script starts on the stack and the colour that the unlocking script has left. -/
def lockingRun (rules : Rules) (locking : Script) (unlocked : State) : Run :=
  ⟨{ rules with script := locking, redeem := false },
    { stack := unlocked.stack, color := unlocked.color }⟩

def redeemRun (rules : Rules) (bytes : Bytes) (rest : Stack) (color : Option ColorId) : Run :=
  ⟨{ rules with script := Script.parse bytes, redeem := true }, { stack := rest, color }⟩

/-- The run of the script on top of the stack that the unlocking script has left, if the locking
script pays to a script digest and has accepted. -/
def redeemRuns (rules : Rules) (unlocking locking : Script) (unlocked locked : State) : List Run :=
  if (locked.stack.peek? 0).any Number.isTrue && (rules.flags.has .p2sh && paysToScript locking) &&
      unlocking.isPushOnly then
    match unlocked.stack with
    | [] => []
    | bytes :: rest => [redeemRun rules bytes rest locked.color]
  else []

def laterRuns (rules : Rules) (unlocking locking : Script) (unlocked : State) : List Run :=
  let closing := lockingRun rules locking unlocked
  closing ::
    match closing.outcome with
    | .ok _ locked => redeemRuns rules unlocking locking unlocked locked
    | .error _ _ => []

def runs (rules : Rules) (unlocking locking : Script) : List Run :=
  if !rules.flags.has .sigPushOnly || unlocking.isPushOnly then
    let opening := unlockingRun rules unlocking
    opening ::
      match opening.outcome with
      | .ok _ unlocked => laterRuns rules unlocking locking unlocked
      | .error _ _ => []
  else []

end ColorScript.Session
