import ColorScript.Text.Blank

/-! The words of a text that was put together from words, with a blank between any two. -/
namespace ColorScript.Text

/-- Some characters, none of them blank. -/
structure IsWord (word : List Char) : Prop where
  filled : word ≠ []
  solid : ∀ c ∈ word, isBlank c = false

def isVisible (c : Char) : Bool := 0x20 < c.toNat && c.toNat < 0x7f

private theorem isBlank_of_isVisible {c : Char} (visible : isVisible c = true) : isBlank c = false := by
  simp only [isVisible,Bool.and_eq_true,decide_eq_true_eq] at visible
  simp only [isBlank,blankRanges,List.any_cons,List.any_nil,Bool.or_false,Bool.or_eq_false_iff,
    Bool.and_eq_false_iff,decide_eq_false_iff_not]
  omega

theorem IsWord.of_visible {word : List Char} (filled : word ≠ []) (visible : word.all isVisible = true) :
    IsWord word :=
  ⟨filled,fun c member => isBlank_of_isVisible (List.all_eq_true.mp visible c member)⟩

private theorem wordsAfter_solid {collected word : List Char} (filled : collected ≠ [])
    (solid : ∀ c ∈ word, isBlank c = false) : wordsAfter collected word = [collected.reverse ++ word] := by
  induction word generalizing collected with
  | nil =>
    cases collected with
    | nil => exact absurd rfl filled
    | cons c collected => exact congrArg (fun word => [word]) (List.append_nil _).symm
  | cons c word ih =>
    obtain ⟨first,others⟩ := List.forall_mem_cons.mp solid
    rw [wordsAfter,first,if_neg Bool.false_ne_true,ih (List.cons_ne_nil c collected) others,
      List.reverse_cons,List.append_assoc]
    rfl

theorem IsWord.words {word : List Char} (held : IsWord word) : words word = [word] := by
  cases word with
  | nil => exact absurd rfl held.filled
  | cons c rest =>
    obtain ⟨first,others⟩ := List.forall_mem_cons.mp held.solid
    rw [Text.words,wordsAfter,first,if_neg Bool.false_ne_true,wordsAfter_solid (List.cons_ne_nil c []) others]
    rfl

/-- Words in a text with blanks between them. There may be more than one in a place, and some at either
end. -/
inductive Spaced : List (List Char) → List Char → Prop
  | nil : Spaced [] []
  | last (word : List Char) : Spaced [word] word
  | blank (c : Char) (list : List (List Char)) (text : List Char) (blank : isBlank c = true)
      (spaced : Spaced list text) : Spaced list (c :: text)
  | word (word : List Char) (c : Char) (list : List (List Char)) (text : List Char)
      (blank : isBlank c = true) (spaced : Spaced list text) : Spaced (word :: list) (word ++ c :: text)

theorem words_append_blank {c : Char} (blank : isBlank c = true) (left right : List Char) :
    words (left ++ c :: right) = words left ++ words right :=
  wordsAfter_append_blank blank [] left right

theorem Spaced.words {list : List (List Char)} {text : List Char} (spaced : Spaced list text)
    (held : ∀ word ∈ list, IsWord word) : words text = list := by
  induction spaced with
  | nil => rfl
  | last word => exact (held word List.mem_cons_self).words
  | blank c list text blank spaced ih =>
    have skipped := words_append_blank blank [] text
    rw [List.nil_append] at skipped
    rw [skipped,ih held]
    rfl
  | word word c list text blank spaced ih =>
    obtain ⟨first,others⟩ := List.forall_mem_cons.mp held
    rw [words_append_blank blank,first.words,ih others]
    rfl

theorem spaced_intercalate (list : List (List Char)) : Spaced list ([' '].intercalate list) := by
  induction list with
  | nil => exact .nil
  | cons word rest ih =>
    cases rest with
    | nil =>
      rw [List.intercalate_singleton]
      exact .last word
    | cons next rest =>
      rw [List.intercalate_cons_cons,List.append_assoc]
      exact .word word ' ' _ _ (by decide) ih

end ColorScript.Text
