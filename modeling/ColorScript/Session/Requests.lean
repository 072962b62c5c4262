import ColorScript.Machine.Visit
import ColorScript.Session

/-! What a caller may ask of a session: requests between two verifications, and demands, which are
verifications as well. One that fails leaves its session to the next one. -/
namespace ColorScript.Session

/-- A request: to run a script on the session, or to replace its stack. -/
inductive Request where
  | evaluate (rules : Rules) (script : Script) (redeem : Bool)
  | setStack (stack : Stack)

def setStack (stack : Stack) : Action Unit := modify fun session => { session with stack }

def Request.perform : Request → Action Unit
  | .evaluate rules script redeem => Session.evaluate rules script redeem
  | .setStack stack => Session.setStack stack

def performAll (session : Session) (requests : List Request) : Session :=
  requests.foldl (fun session request => final (request.perform session)) session

/-- A demand: a request, or a verification. -/
inductive Demand where
  | request (asked : Request)
  | verify (rules : Rules) (unlocking locking : Script)

def Demand.perform : Demand → Action Unit
  | .request asked => asked.perform
  | .verify rules unlocking locking => Session.verify rules unlocking locking

def serve (session : Session) (demands : List Demand) : Session :=
  demands.foldl (fun session demand => final (demand.perform session)) session

end ColorScript.Session
