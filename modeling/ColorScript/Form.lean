import ColorScript.Color
import ColorScript.Flags
import ColorScript.Script

/-! The forms in which values are stored: trees of records, lists, numbers and labels.
Reading refuses any tree that does not have the shape of the value. -/
namespace ColorScript

/-- A stored tree. The fields of a record have no order. -/
inductive Form where
  | null
  | bool (value : Bool)
  | number (value : Int)
  | text (value : String)
  | list (items : List Form)
  | record (fields : List (String × Form))
deriving Inhabited

namespace Form

def field? (fields : List (String × Form)) (name : String) : Option Form := fields.lookup name

/-- The forms of the named fields of a structure, in order: a record that has them all, or
a list of just their forms. -/
def fields? (names : List String) : Form → Option (List Form)
  | .record fields => names.mapM (field? fields)
  | .list items => if items.length = names.length then some items else none
  | _ => none

def tagged (label : String) (content : Form) : Form := .record [(label, content)]

def tag? : Form → Option (String × Form)
  | .record [(label, content)] => some (label, content)
  | _ => none

def label? : Form → Option String
  | .text label => some label
  | .record [(label, .null)] => some label
  | _ => none

def ofBytes (bytes : Bytes) : Form := .list (bytes.map fun byte => .number byte.toNat)

def nat? (limit : Nat) : Form → Option Nat
  | .number n => if 0 ≤ n ∧ n < limit then some n.toNat else none
  | _ => none

def byte? (form : Form) : Option UInt8 := (nat? 256 form).map UInt8.ofNat

def bytes? : Form → Option Bytes
  | .list items => items.mapM byte?
  | _ => none

def digest256? (form : Form) : Option Digest256 := do
  let bytes ← form.bytes?
  if h : bytes.length = 32 then some ⟨bytes, h⟩ else none

def tokenLabel : TokenType → String
  | .reissuable => "Reissuable"
  | .nonReissuable => "NonReissuable"
  | .nft => "Nft"

def tokenType? (form : Form) : Option TokenType := do
  let label ← form.label?
  [TokenType.reissuable, .nonReissuable, .nft].find? fun type => tokenLabel type = label

def ofColor (color : ColorId) : Form :=
  .record [("token_type", .text (tokenLabel color.type)), ("payload", ofBytes color.payload.val)]

def color? (form : Form) : Option ColorId := do
  match ← form.fields? ["token_type", "payload"] with
  | [type, payload] => return ⟨← tokenType? type, ← digest256? payload⟩
  | _ => none

def ofOutPoint (point : OutPoint) : Form :=
  .record [("txid", ofBytes point.txid.val), ("index", .number point.index.toNat)]

def outPoint? (form : Form) : Option OutPoint := do
  match ← form.fields? ["txid", "index"] with
  | [txid, index] => return ⟨← digest256? txid, UInt32.ofNat (← nat? 0x100000000 index)⟩
  | _ => none

def ofChunk : Chunk → Form
  | .op code => tagged "Opcode" (.number code.toNat)
  | .push header payload =>
    tagged "PushData" (.record [("header", ofBytes header), ("payload", ofBytes payload)])
  | .raw bytes => tagged "Raw" (ofBytes bytes)

def chunk? (form : Form) : Option Chunk := do
  match ← form.tag? with
  | ("Opcode", content) => (byte? content).map .op
  | ("Raw", content) => (bytes? content).map .raw
  | ("PushData", .record fields) =>
    let header ← field? fields "header"
    let payload ← field? fields "payload"
    return .push (← bytes? header) (← bytes? payload)
  | _ => none

def ofScript (script : Script) : Form := .record [("chunks", .list (script.map ofChunk))]

def script? (form : Form) : Option Script := do
  match ← form.fields? ["chunks"] with
  | [.list chunks] => chunks.mapM chunk?
  | _ => none

def ofFlags (flags : Flags) : Form := .text flags.barText

def flags? : Form → Option Flags
  | .text bars => Flags.ofBarText? bars
  | _ => none

def ofOutcome (outcome : ScriptError) : Form := .text outcome.label

def outcome? (form : Form) : Option ScriptError := form.label?.bind ScriptError.ofLabel?

def categoryLabel : Category → String
  | .push => "Push"
  | .flow => "Flow"
  | .stack => "Stack"
  | .splice => "Splice"
  | .bitwise => "Bitwise"
  | .arithmetic => "Arithmetic"
  | .crypto => "Crypto"
  | .locktime => "Locktime"
  | .color => "Color"
  | .reserved => "Reserved"
  | .pseudo => "Pseudo"

def categories : List Category :=
  [.push, .flow, .stack, .splice, .bitwise, .arithmetic, .crypto, .locktime, .color, .reserved,
   .pseudo]

def ofCategory (category : Category) : Form := .text (categoryLabel category)

def category? (form : Form) : Option Category := do
  let label ← form.label?
  categories.find? fun category => categoryLabel category = label

end Form

end ColorScript
