/-! Integers as decimal texts: an optional minus sign and ASCII digits. -/
namespace ColorScript.Text.Decimal

def digit (n : Nat) : Char := Char.ofNat (48 + n)

def value (c : Char) : Nat := c.toNat - 48

def isDigit (c : Char) : Bool := 48 ≤ c.toNat && c.toNat ≤ 57

def digits (n : Nat) : List Char :=
  if n < 10 then [digit n] else digits (n / 10) ++ [digit (n % 10)]
termination_by n

def ofInt : Int → List Char
  | .ofNat n => digits n
  | .negSucc n => '-' :: digits (n + 1)

def ofDigits (text : List Char) : Nat := text.foldl (fun n c => 10 * n + value c) 0

/-- Reads an optional minus sign and at least one digit; leading zeros are allowed. -/
def toInt? (text : List Char) : Option Int :=
  match text with
  | '-' :: rest =>
    if rest ≠ [] ∧ rest.all isDigit then some (-(ofDigits rest : Int)) else none
  | _ => if text ≠ [] ∧ text.all isDigit then some (ofDigits text) else none

/-- Reads an integer that fits 64 bits with a sign. -/
def toInt64? (text : List Char) : Option Int64 := do
  let n ← toInt? text
  if Int64.minValue.toInt ≤ n ∧ n ≤ Int64.maxValue.toInt then some (Int64.ofInt n) else none

def text (n : Int) : String := String.ofList (ofInt n)

end ColorScript.Text.Decimal
