import ColorScript.Bytes

/-! Texts as lists of characters: blank characters, trimming, and the two ways
a text is cut into parts, at blanks and at a separator. -/
namespace ColorScript.Text

/-- The ranges of characters with the property `White_Space`. -/
def blankRanges : List (Nat × Nat) :=
  [(0x09, 0x0d), (0x20, 0x20), (0x85, 0x85), (0xa0, 0xa0), (0x1680, 0x1680),
   (0x2000, 0x200a), (0x2028, 0x2029), (0x202f, 0x202f), (0x205f, 0x205f), (0x3000, 0x3000)]

def isBlank (c : Char) : Bool :=
  blankRanges.any fun (low, high) => low ≤ c.toNat && c.toNat ≤ high

def trim (text : List Char) : List Char :=
  (((text.dropWhile isBlank).reverse).dropWhile isBlank).reverse

private def finished (collected : List Char) : List (List Char) :=
  if collected.isEmpty then [] else [collected.reverse]

/-- The words of a text, `collected` being the reversed start of the first. -/
def wordsAfter : (collected text : List Char) → List (List Char)
  | collected, [] => finished collected
  | collected, c :: rest =>
    if isBlank c then finished collected ++ wordsAfter [] rest
    else wordsAfter (c :: collected) rest

def words (text : List Char) : List (List Char) := wordsAfter [] text

theorem wordsAfter_append_blank {c : Char} (blank : isBlank c = true)
    (collected left right : List Char) :
    wordsAfter collected (left ++ c :: right) = wordsAfter collected left ++ words right := by
  induction left generalizing collected with
  | nil => simp [wordsAfter, blank, words]
  | cons head tail ih =>
    by_cases h : isBlank head = true
    · simp [wordsAfter, h, ih]
    · simp [wordsAfter, h, ih]

/-- The parts of a text between the occurrences of `mark`, empty parts included. -/
def parts (mark : Char) : List Char → List (List Char)
  | [] => [[]]
  | c :: rest =>
    if c = mark then [] :: parts mark rest
    else
      match parts mark rest with
      | [] => [[c]]
      | first :: others => (c :: first) :: others

def dropLead (lead text : List Char) : List Char := (afterStart? lead text).getD text

def utf8 (text : List Char) : Bytes := text.flatMap String.utf8EncodeChar

end ColorScript.Text
