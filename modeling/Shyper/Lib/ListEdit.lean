import Mathlib.Data.List.Perm.Basic

/-! Edits of a list at positions, read up to reordering. -/

namespace Shyper.Lib

variable {α : Type*} {list : List α} {i j : Nat}

theorem getElem_perm_cons (bound : i < list.length) : list.Perm (list[i] :: list.eraseIdx i) :=
  (List.getElem_cons_eraseIdx_perm bound).symm

/-- Rewriting one position and dropping another, seen from the two elements. -/
theorem set_eraseIdx_perm (first : i < list.length) (second : j < list.length) (differ : i ≠ j) :
    ∃ rest, list.Perm (list[i] :: list[j] :: rest) ∧
      ∀ x, ((list.set i x).eraseIdx j).Perm (x :: rest) := by
  have member : list[j] ∈ list.eraseIdx i :=
    List.mem_eraseIdx_iff_getElem.mpr ⟨j, second, differ.symm, rfl⟩
  obtain ⟨before, after, same⟩ := List.append_of_mem member
  have exposed : (list.eraseIdx i).Perm (list[j] :: (before ++ after)) := by
    rw [same]
    exact List.perm_middle
  refine ⟨before ++ after, (getElem_perm_cons first).trans (exposed.cons _), fun x => ?_⟩
  have bound : j < (list.set i x).length := by simpa using second
  have kept : (list.set i x)[j] = list[j] := List.getElem_set_ne differ bound
  have opened : (list[j] :: (list.set i x).eraseIdx j).Perm (list.set i x) := by
    rw [← kept]
    exact List.getElem_cons_eraseIdx_perm bound
  have edited := opened.trans (List.set_perm_cons_eraseIdx first x)
  exact (edited.trans ((exposed.cons x).trans (List.Perm.swap _ _ _))).cons_inv

/-- Where the rewritten element ends up once the other position is gone. -/
theorem getElem?_set_eraseIdx (first : i < list.length) (differ : i ≠ j) (x : α) :
    ((list.set i x).eraseIdx j)[if i < j then i else i - 1]? = some x := by
  split
  · rename_i before
    rw [List.getElem?_eraseIdx_of_lt before, List.getElem?_set_self first]
  · rename_i after
    have position : i - 1 + 1 = i := by omega
    rw [List.getElem?_eraseIdx_of_ge (by omega), position, List.getElem?_set_self first]

/-- A search by position cuts the list at what it finds. -/
theorem findIdx?_split {pred : α → Bool} (found : list.findIdx? pred = some i) :
    ∃ front x back, list = front ++ x :: back ∧ front.length = i ∧ pred x = true ∧
      list.eraseIdx i = front ++ back := by
  obtain ⟨inside, hit, _⟩ := List.findIdx?_eq_some_iff_getElem.mp found
  refine ⟨list.take i, list[i], list.drop (i + 1), ?_, ?_, hit, List.eraseIdx_eq_take_drop_succ ..⟩
  · rw [List.getElem_cons_drop, List.take_append_drop]
  · rw [List.length_take]
    omega

/-- An element that passes leaves the list, or joins its end as one that stops: what comes
before the first to stop is what came before it, without the element. -/
theorem takeWhile_erase_append [DecidableEq α] {before after : α → Bool} {list rest : List α} {x : α}
    (once : list.Nodup) (passed : before x = true) (stops : after x = false)
    (kept : ∀ y ∈ list, y ≠ x → after y = before y) (last : ∀ y ∈ rest, y = x) :
    (list.erase x ++ rest).takeWhile after = (list.takeWhile before).erase x := by
  have nothing : rest.takeWhile after = [] := by
    cases rest with
    | nil => rfl
    | cons y rest =>
      rw [last y List.mem_cons_self]
      exact List.takeWhile_cons_of_neg (by simp [stops])
  induction list with
  | nil => simpa using nothing
  | cons y list ih =>
    obtain ⟨absent, once⟩ := List.nodup_cons.mp once
    have ih := ih once fun z member => kept z (List.mem_cons_of_mem _ member)
    by_cases this : y = x
    · subst this
      rw [List.erase_of_not_mem absent] at ih
      have front : y ∉ list.takeWhile before := fun member => absent ((List.takeWhile_sublist _).mem member)
      rw [List.erase_of_not_mem front] at ih
      rw [List.erase_cons_head, List.takeWhile_cons_of_pos passed, List.erase_cons_head]
      exact ih
    · rw [List.erase_cons_tail (by simpa using this), List.cons_append]
      cases pass : before y with
      | true =>
        have also : after y = true := (kept y List.mem_cons_self this).trans pass
        rw [List.takeWhile_cons_of_pos also, List.takeWhile_cons_of_pos pass, ih,
          List.erase_cons_tail (by simpa using this)]
      | false =>
        have also : after y = false := (kept y List.mem_cons_self this).trans pass
        rw [List.takeWhile_cons_of_neg (by simp [also]), List.takeWhile_cons_of_neg (by simp [pass]), List.erase_nil]

end Shyper.Lib
