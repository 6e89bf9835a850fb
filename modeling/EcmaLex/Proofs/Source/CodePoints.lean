import EcmaLex.Proofs.Source.Exact
import EcmaLex.Source.CodePoints

/-!
# The source of code points is exact

A cursor over an array of characters stands at the index of its current character, and
every character takes one position.

## Main results

* the instance `ExactSource CodePoints`.
* `CodePoints.extent_eq_length` — a text extends over as many positions as it has characters.
-/

namespace EcmaLex

namespace CodePoints

/-- The cursor with the first characters read, and the first of the others the current
one. -/
def place (before after : List Char) : CodePoints where
  text := (before ++ after).toArray
  next := (before ++ after.take 1).length
  current := before.length

/-- Reading on from the end of some characters reads the first of the others. -/
theorem advance_append (before after : List Char) (current : Nat) :
    advance ⟨(before ++ after).toArray, before.length, current⟩ =
      (after.head?, place before after) := by
  have hget : (before ++ after).toArray[before.length]? = after.head? := by
    rw [List.getElem?_toArray, List.getElem?_append_right (Nat.le_refl _), Nat.sub_self,
      List.head?_eq_getElem?]
  rw [advance]
  dsimp only
  rw [hget]
  cases after with
  | nil => simp [place]
  | cons c after => simp [place]

theorem place_nil (before : List Char) :
    place before [] = ⟨(before ++ []).toArray, before.length, before.length⟩ := by
  simp [place]

/-- The next unread character comes after the current one. -/
theorem place_cons (before : List Char) (c : Char) (after : List Char) :
    place before (c :: after) =
      ⟨((before ++ [c]) ++ after).toArray, (before ++ [c]).length, before.length⟩ := by
  simp [place]

theorem peek_place (before after : List Char) :
    TextSource.peek (place before after) = after.tail.head? := by
  show (before ++ after).toArray[(before ++ after.take 1).length]? = _
  cases after with
  | nil => simp
  | cons c after =>
    have happend : before ++ c :: after = (before ++ [c]) ++ after := by simp
    simp only [List.getElem?_toArray, List.tail_cons, List.take_succ_cons, List.take_zero]
    rw [happend, List.getElem?_append_right (Nat.le_refl _), Nat.sub_self,
      List.head?_eq_getElem?]

theorem pushBack_place (before : List Char) (c : Char) (after : List Char) :
    pushBack c (place (before ++ [c]) after) = place before (c :: after) := by
  simp [pushBack, place]

theorem totalWidth_one (text : List Char) : totalWidth (fun _ => 1) text = text.length := by
  induction text with
  | nil => rfl
  | cons c text ih =>
    rw [totalWidth_cons, ih, List.length_cons]
    omega

instance : ExactSource CodePoints where
  width _ := 1
  width_pos _ := Nat.one_pos
  fresh text := ofString (String.ofList text)
  between := place
  advance_fresh text := by
    show advance ⟨(String.ofList text).toList.toArray, 0, 0⟩ = _
    rw [String.toList_ofList]
    exact advance_append [] text 0
  position_fresh _ := rfl
  advance_cons before c after := by
    rw [place_cons]
    exact advance_append (before ++ [c]) after _
  advance_nil before := by
    have := advance_append before [] before.length
    rwa [← place_nil] at this
  peek_between := peek_place
  pushBack_between := pushBack_place
  position_between before _ := (totalWidth_one before).symm
  skipTo_between _ _ _ := rfl

/-- The cursor before a string is the one before its characters. -/
theorem ofString_eq_fresh (s : String) : ofString s = ExactSource.fresh s.toList := by
  show ofString s = ofString (String.ofList s.toList)
  rw [String.ofList_toList]

/-- The extent of a text is the number of its characters. -/
theorem extent_eq_length (text : List Char) : extent CodePoints text = text.length :=
  totalWidth_one text

end CodePoints

end EcmaLex
