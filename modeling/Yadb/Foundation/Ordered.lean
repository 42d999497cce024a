/-
**Lists in a strict order are given by their members.**

* `eq_filter`: with the members that pass a test, what is left of a list after the others are out.
* `exists_insert`: with one member more, the list with that member somewhere.
-/

import Mathlib.Data.List.Basic

namespace Foundation

variable {Item : Type} {before : Item → Item → Prop} {list list' : List Item}

/-- What comes before another never comes after it. -/
def Strict (before : Item → Item → Prop) : Prop := ∀ first second, before first second →
  ¬ before second first

theorem Strict.nodup (strict : Strict before) (sorted : list.Pairwise before) : list.Nodup := by
  refine sorted.imp fun {first second} isBefore same => ?_
  subst same
  exact strict _ _ isBefore isBefore

/-- **A strict order leaves no choice.** -/
theorem Strict.eq_of_mem_iff (strict : Strict before) (sorted : list.Pairwise before)
    (sorted' : list'.Pairwise before) (same : ∀ item, item ∈ list ↔ item ∈ list') :
    list = list' := by
  have perm := (List.perm_ext_iff_of_nodup (strict.nodup sorted) (strict.nodup sorted')).mpr same
  exact perm.eq_of_pairwise
    (fun first second _ _ forth back => absurd back (strict first second forth)) sorted sorted'

theorem Strict.eq_filter (strict : Strict before) (sorted : list.Pairwise before)
    (sorted' : list'.Pairwise before) {test : Item → Bool}
    (passes : ∀ item, item ∈ list' ↔ item ∈ list ∧ test item = true) :
    list' = list.filter test := by
  refine strict.eq_of_mem_iff sorted' (sorted.filter test) fun item => ?_
  rw [List.mem_filter]
  exact passes item

theorem Strict.exists_insert (strict : Strict before) (sorted : list.Pairwise before)
    (sorted' : list'.Pairwise before) {new : Item} (absent : new ∉ list)
    (more : ∀ item, item ∈ list' ↔ item = new ∨ item ∈ list) :
    ∃ front back, list = front ++ back ∧ list' = front ++ new :: back := by
  obtain ⟨front, back, isList⟩ := List.append_of_mem ((more new).mpr (Or.inl rfl))
  refine ⟨front, back, ?_, isList⟩
  have fewer : (front ++ back).Sublist list' := by
    rw [isList]
    exact List.Sublist.append_left (List.sublist_cons_self new back) front
  have distinct : new ∉ front ++ back := by
    have nodup := strict.nodup sorted'
    rw [isList, List.perm_middle.nodup_iff] at nodup
    exact (List.nodup_cons.mp nodup).1
  refine strict.eq_of_mem_iff sorted (sorted'.sublist fewer) fun item => ?_
  have isMember := more item
  rw [isList, List.mem_append, List.mem_cons, ← or_left_comm, ← List.mem_append] at isMember
  by_cases isNew : item = new
  · rw [isNew]
    exact iff_of_false absent distinct
  · rw [or_iff_right isNew, or_iff_right isNew] at isMember
    exact isMember.symm

end Foundation
