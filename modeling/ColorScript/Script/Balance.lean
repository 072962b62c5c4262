import ColorScript.Script

/-! Conditionals in a script: the chunks that open, divide and close branches, the number of
branches open after a script, and the scripts that close every branch they open. -/
namespace ColorScript

/-- What a chunk does to the branches of a script. -/
inductive Bracket where
  | opening
  | divider
  | closing
deriving DecidableEq

namespace Bracket

/-- The number of open branches afterwards. There has to be one to divide or to close. -/
def depthAfter? : Bracket → (depth : Nat) → Option Nat
  | .opening, depth => some (depth + 1)
  | .divider, outer + 1 => some (outer + 1)
  | .closing, outer + 1 => some outer
  | _, 0 => none

theorem depthAfter?_add (bracket : Bracket) (depth inner outer : Nat)
    (found : bracket.depthAfter? depth = some inner) :
    bracket.depthAfter? (depth + outer) = some (inner + outer) := by
  cases bracket <;> cases depth <;> cases found <;> simp only [depthAfter?,Nat.add_right_comm]

end Bracket

def Opcode.bracket? : Opcode → Option Bracket
  | 0x63 | 0x64 => some .opening
  | 0x67 => some .divider
  | 0x68 => some .closing
  | _ => none

namespace Chunk

def bracket? (chunk : Chunk) : Option Bracket :=
  if chunk.isPush then none else Opcode.bracket? chunk.opcode

def depthAfter? (chunk : Chunk) (depth : Nat) : Option Nat :=
  match chunk.bracket? with
  | some bracket => bracket.depthAfter? depth
  | none => some depth

theorem depthAfter?_add (chunk : Chunk) (depth inner outer : Nat)
    (found : chunk.depthAfter? depth = some inner) :
    chunk.depthAfter? (depth + outer) = some (inner + outer) := by
  unfold depthAfter? at found ⊢
  cases kind : chunk.bracket? with
  | none =>
    rw [kind] at found
    cases found
    rfl
  | some bracket =>
    rw [kind] at found
    exact bracket.depthAfter?_add depth inner outer found

end Chunk

namespace Script

def depthAfter? : (script : Script) → (depth : Nat) → Option Nat
  | [], depth => some depth
  | chunk :: rest, depth => (chunk.depthAfter? depth).bind (depthAfter? rest)

def isBalanced (script : Script) : Bool := script.depthAfter? 0 = some 0

theorem depthAfter?_append (first second : Script) (depth : Nat) :
    depthAfter? (first ++ second) depth = (depthAfter? first depth).bind (depthAfter? second) := by
  induction first generalizing depth with
  | nil => rfl
  | cons chunk rest ih =>
    simp only [List.cons_append,depthAfter?]
    cases chunk.depthAfter? depth with
    | none => rfl
    | some inner => exact ih inner

theorem depthAfter?_add (script : Script) (depth inner outer : Nat)
    (found : script.depthAfter? depth = some inner) :
    script.depthAfter? (depth + outer) = some (inner + outer) := by
  induction script generalizing depth with
  | nil =>
    cases found
    rfl
  | cons chunk rest ih =>
    obtain ⟨middle,stepped,found⟩ := Option.bind_eq_some_iff.mp found
    rw [depthAfter?,chunk.depthAfter?_add depth middle outer stepped]
    exact ih middle found

theorem depthAfter?_of_isBalanced {script : Script} (balanced : script.isBalanced = true)
    (depth : Nat) : script.depthAfter? depth = some depth := by
  simpa using depthAfter?_add script 0 0 depth (of_decide_eq_true balanced)

end Script

/-- A conditional: a chunk that opens a branch, the first part, further parts with a divider in
front of each, and a chunk that closes the branch. The parts are balanced, so that no divider
stands in a part outside of the conditionals in it. -/
structure Conditional where
  opening : Chunk
  first : Script
  others : List (Chunk × Script)
  closing : Chunk
  opens : opening.bracket? = some .opening
  divides : ∀ part ∈ others, part.1.bracket? = some .divider
  closes : closing.bracket? = some .closing
  firstBalanced : first.isBalanced = true
  othersBalanced : ∀ part ∈ others, Script.isBalanced part.2 = true

namespace Conditional

def rest (others : List (Chunk × Script)) : Script := others.flatMap fun part => part.1 :: part.2

def chunks (block : Conditional) : Script :=
  block.opening :: (block.first ++ (rest block.others ++ [block.closing]))

def isNegated (block : Conditional) : Bool := block.opening.opcode = 0x64

theorem depthAfter?_rest (others : List (Chunk × Script))
    (divides : ∀ part ∈ others, part.1.bracket? = some .divider)
    (balanced : ∀ part ∈ others, Script.isBalanced part.2 = true) :
    (rest others).depthAfter? 1 = some 1 := by
  induction others with
  | nil => rfl
  | cons part others ih =>
    rw [List.forall_mem_cons] at divides balanced
    have divided : part.1.depthAfter? 1 = some 1 := by
      rw [Chunk.depthAfter?,divides.1]
      rfl
    rw [rest,List.flatMap_cons,List.cons_append,Script.depthAfter?,divided,Option.bind_some,
      Script.depthAfter?_append,Script.depthAfter?_of_isBalanced balanced.1]
    exact ih divides.2 balanced.2

theorem isBalanced_chunks (block : Conditional) : block.chunks.isBalanced = true := by
  have opened : block.opening.depthAfter? 0 = some 1 := by
    rw [Chunk.depthAfter?,block.opens]
    rfl
  have closed : Script.depthAfter? [block.closing] 1 = some 0 := by
    rw [Script.depthAfter?,Chunk.depthAfter?,block.closes]
    rfl
  refine decide_eq_true ?_
  rw [chunks,Script.depthAfter?,opened,Option.bind_some,Script.depthAfter?_append,
    Script.depthAfter?_of_isBalanced block.firstBalanced,Option.bind_some,
    Script.depthAfter?_append,depthAfter?_rest block.others block.divides block.othersBalanced]
  exact closed

end Conditional

end ColorScript
