import ColorScript.Checked.Machine
import ColorScript.Proofs.Faultless.Template

/-! Stacks do not fault. A depth that a stack reaches becomes a place of its items from the bottom on,
and what is done at that place is done at that depth. -/
namespace ColorScript.Checked

variable {α : Type} {items : List α} {stack : Stack} {depth a b : Nat}

private theorem reverse_set (item : α) (inside : depth < items.length) :
    (items.reverse.set (items.length - 1 - depth) item).reverse = items.set depth item := by
  refine List.ext_getElem (by simp) fun place first second => ?_
  rw [List.length_set] at second
  have same : items.length - 1 - depth = items.length - 1 - place ↔ depth = place := by omega
  simp only [List.getElem_reverse,List.length_set,List.length_reverse,List.getElem_set,same]
  congr
  omega

private theorem reverse_eraseIdx (inside : depth < items.length) :
    (items.reverse.eraseIdx (items.length - 1 - depth)).reverse = items.eraseIdx depth := by
  have place : items.length - (items.length - 1 - depth) = depth + 1 := by omega
  have after : items.length - (items.length - 1 - depth + 1) = depth := by omega
  rw [List.eraseIdx_eq_take_drop_succ,List.eraseIdx_eq_take_drop_succ,List.reverse_append,
    List.take_reverse,List.drop_reverse,List.reverse_reverse,List.reverse_reverse,place,after]

private theorem placeOf_eq {items : List Bytes} (inside : depth < items.length) :
    placeOf items depth = .ok (items.length - 1 - depth) := by
  rw [placeOf,sub_eq (by omega),ok_bind,sub_eq (by omega)]

private theorem index_ascending (inside : depth < stack.length) :
    index (ascending stack) (stack.length - 1 - depth) = .ok stack[depth] := by
  have place : stack.length - 1 - (stack.length - 1 - depth) = depth := by omega
  rw [ascending,index_eq (by rw [List.length_reverse]; omega),List.getElem_reverse]
  simp only [place]

theorem peek?_eq (small : depth + 1 < 2 ^ 64) : peek? stack depth = .ok (stack.peek? depth) := by
  rw [peek?,add_eq small,ok_bind,Stack.peek?]
  split
  next short =>
    rw [List.getElem?_eq_none (by omega)]
    rfl
  next long =>
    have inside : depth < stack.length := by omega
    have length : (ascending stack).length = stack.length := List.length_reverse
    dsimp only
    rw [placeOf_eq (length ▸ inside),length,ok_bind,index_ascending inside,List.getElem?_eq_getElem inside]
    rfl

theorem remove?_eq (small : depth + 1 < 2 ^ 64) : remove? stack depth = .ok (stack.remove? depth) := by
  rw [remove?,add_eq small,ok_bind,Stack.remove?]
  split
  next short =>
    rw [List.getElem?_eq_none (by omega)]
    rfl
  next long =>
    have inside : depth < stack.length := by omega
    have length : (ascending stack).length = stack.length := List.length_reverse
    dsimp only
    rw [placeOf_eq (length ▸ inside),length,ok_bind,index_ascending inside,ok_bind,ascending,
      reverse_eraseIdx inside,List.getElem?_eq_getElem inside]
    rfl

private theorem insertIdx_eq (item : α) (inside : depth ≤ items.length) :
    items.insertIdx depth item = items.take depth ++ item :: items.drop depth := by
  induction depth generalizing items with
  | zero => rfl
  | succ depth ih =>
    cases items with
    | nil => cases inside
    | cons first rest =>
      rw [List.insertIdx_succ_cons,ih (Nat.le_of_succ_le_succ inside)]
      rfl

theorem insert?_eq (item : Bytes) : insert? stack depth item = .ok (stack.insert? depth item) := by
  rw [insert?,Stack.insert?]
  split
  next short =>
    rw [if_neg (by omega)]
    rfl
  next long =>
    have inside : depth ≤ stack.length := by omega
    have length : (ascending stack).length = stack.length := List.length_reverse
    dsimp only
    rw [length,sub_eq inside,ok_bind,slice_eq (Nat.zero_le _) (by omega),ok_bind,sliceFrom_eq (by omega),
      ok_bind,if_pos inside,ascending,List.drop_zero,Nat.sub_zero,List.reverse_append,List.reverse_cons,
      List.take_reverse,List.drop_reverse,List.reverse_reverse,List.reverse_reverse,
      Nat.sub_sub_self inside,insertIdx_eq item inside,List.append_assoc]
    rfl

theorem swap?_eq (small : max a b + 1 < 2 ^ 64) : swap? stack a b = .ok (stack.swap? a b) := by
  rw [swap?,add_eq small,ok_bind,Stack.swap?]
  split
  next short =>
    rcases Nat.lt_or_ge b stack.length with inside | outside
    · rw [List.getElem?_eq_none (by omega : stack.length ≤ a)]
      rfl
    · rw [List.getElem?_eq_none outside]
      cases stack[a]? <;> rfl
  next long =>
    have insideA : a < stack.length := by omega
    have insideB : b < stack.length := by omega
    have length : (ascending stack).length = stack.length := List.length_reverse
    have swapped : (((ascending stack).set (stack.length - 1 - a) stack[b]).set (stack.length - 1 - b)
        stack[a]).reverse = (stack.set a stack[b]).set b stack[a] := by
      have inner : (ascending stack).set (stack.length - 1 - a) stack[b] = (stack.set a stack[b]).reverse := by
        rw [← reverse_set stack[b] insideA,List.reverse_reverse]
        rfl
      have outer := reverse_set stack[a] ((List.length_set ▸ insideB) : b < (stack.set a stack[b]).length)
      rw [List.length_set] at outer
      rw [inner,outer]
    dsimp only
    rw [placeOf_eq (length ▸ insideA),placeOf_eq (length ▸ insideB),length,ok_bind,ok_bind,
      index_ascending insideA,ok_bind,index_ascending insideB,ok_bind,swapped,
      List.getElem?_eq_getElem insideA,List.getElem?_eq_getElem insideB]
    rfl

end ColorScript.Checked
