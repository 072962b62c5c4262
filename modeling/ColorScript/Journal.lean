import ColorScript.Machine.Execute

/-! The journal of a run: what an observer of the machine writes down. The machine itself
does not depend on it. -/
namespace ColorScript

inductive Entry where
  | executing (place : Nat) (chunk : Chunk) (depth : Nat)
  | failed (place : Nat) (chunk : Chunk) (error : ScriptError)
  | tooLarge (size : Nat)
  | openBranches (count : Nat)
  | redeeming (script : Script)
deriving DecidableEq

open Text in
def Entry.line : Entry → String
  | .executing place chunk depth =>
    "TRACE: chunk " ++ Decimal.text place ++ ": " ++ chunk.text ++ " (stack depth "
      ++ Decimal.text depth ++ ")"
  | .failed place chunk error =>
    "DEBUG: script failed at chunk " ++ Decimal.text place ++ " (" ++ chunk.text ++ "): "
      ++ error.name
  | .tooLarge size => "DEBUG: script rejected: " ++ Decimal.text size ++ " bytes"
  | .openBranches count =>
    "DEBUG: script ended with " ++ Decimal.text count ++ " open conditionals"
  | .redeeming script => "TRACE: evaluating redeem script " ++ Script.text script

namespace Journal

/-- The entry before a chunk is executed; pushes and skipped chunks have none, and neither
has an operation that fails a check before. -/
def announce (ctx : Context) (place : Nat) (chunk : Chunk) (state : State) : List Entry :=
  if chunk.isPush then []
  else
    match Machine.screen ctx chunk.opcode state with
    | .ok _ after =>
      if after.reaches chunk.opcode then [.executing place chunk after.stack.length] else []
    | .error _ _ => []

def ofChunks (ctx : Context) : (place : Nat) → List Chunk → State → List Entry
  | _, [], state => if state.flow.isEmpty then [] else [.openBranches state.flow.length]
  | place, chunk :: rest, state =>
    announce ctx place chunk state ++
      match Machine.advance ctx place chunk state with
      | .ok _ after => ofChunks ctx (place + 1) rest after
      | .error error _ => [.failed place chunk error]

def ofRun (ctx : Context) (state : State) : List Entry :=
  if ctx.script.size ≤ Script.maxSize then ofChunks ctx 0 ctx.script state
  else [.tooLarge ctx.script.size]

end Journal

end ColorScript
