import Mathlib.Algebra.GroupWithZero.Nat
import Mathlib.Logic.Equiv.Defs
import Relock.Proofs.Reordering.Swap
import Relock.Proofs.Resolution.Packages

/-!
# Numbers in another order

Items are numbered one after the other, and each takes as many numbers as it needs. When the items
come in another order, each still gets as many numbers, and so there is a permutation of numbers that
takes the numbers of each item to those that it gets in the other order.
-/

namespace Relock

open Resolution (allotted map_fst_allotted flatMap_allotted)

variable {α β : Type} {count : α → Nat}

/-- The numbers of two adjacent blocks change places. -/
def exchanges (start first second : Nat) : Equiv.Perm Nat where
  toFun := exchange start first second
  invFun := exchange start second first
  left_inv := exchange_exchange start first second
  right_inv := exchange_exchange start second first

theorem allotted_map (change : β → α) (start : Nat) (items : List β) :
    allotted count start (items.map change) =
      (allotted (count ∘ change) start items).map fun entry => (change entry.1, entry.2) := by
  induction items generalizing start with
  | nil => rfl
  | cons item items ih =>
      rw [List.map_cons, allotted, allotted, List.map_cons, ih]
      rfl

theorem le_of_mem_allotted {start : Nat} {items : List α} {entry : α × List Nat}
    (listed : entry ∈ allotted count start items) {id : Nat} (own : id ∈ entry.2) : start ≤ id := by
  induction items generalizing start with
  | nil => cases listed
  | cons item items ih =>
      rw [allotted, List.mem_cons] at listed
      rcases listed with rfl | later
      · exact (List.mem_range'_1.mp own).1
      · exact Nat.le_trans (Nat.le_add_right _ _) (ih later)

/-- A permutation of the numbers that takes those of each item to those that it has in another
order. -/
structure Renumbers (count : α → Nat) (start : Nat) (items others : List α)
    (moved : Equiv.Perm Nat) : Prop where
  /-- Numbers that are taken already stay. -/
  below : ∀ id, id < start → moved id = id
  /-- Numbers that are not needed stay. -/
  beyond : ∀ id, start + (items.map count).sum ≤ id → moved id = id
  numbers : ((allotted count start items).map fun entry => (entry.1, entry.2.map moved)).Perm
    (allotted count start others)

namespace Renumbers

variable {start : Nat} {items middle others : List α} {moved next : Equiv.Perm Nat}

theorem refl (items : List α) : Renumbers count start items items (Equiv.refl Nat) where
  below _ _ := rfl
  beyond _ _ := rfl
  numbers := by simp

theorem cons (item : α) (renumbers : Renumbers count (start + count item) items others moved) :
    Renumbers count start (item :: items) (item :: others) moved where
  below id old := renumbers.below id (Nat.lt_of_lt_of_le old (Nat.le_add_right _ _))
  beyond id new := renumbers.beyond id (by simpa [Nat.add_assoc] using new)
  numbers := by
    have fixed : (List.range' start (count item)).map moved = List.range' start (count item) := by
      refine (List.map_congr_left fun id own => ?_).trans (List.map_id _)
      exact renumbers.below id (List.mem_range'_1.mp own).2
    rw [allotted, allotted, List.map_cons, fixed]
    exact renumbers.numbers.cons _

theorem swap (first second : α) (items : List α) :
    Renumbers count start (first :: second :: items) (second :: first :: items)
      (exchanges start (count first) (count second)) := by
  have earlier (id : Nat) (old : id < start) :
      exchanges start (count first) (count second) id = id := if_pos old
  have later (id : Nat) (new : start + count first + count second ≤ id) :
      exchanges start (count first) (count second) id = id := by
    change exchange _ _ _ _ = _
    rw [exchange, if_neg (by omega), if_neg (by omega), if_neg (by omega)]
  refine ⟨earlier, fun id new => later id ?_, ?_⟩
  · simp only [List.map_cons, List.sum_cons] at new
    omega
  · have of_first : (List.range' start (count first)).map
        (exchanges start (count first) (count second)) =
          List.range' (start + count second) (count first) := by
      rw [Nat.add_comm start, ← List.map_add_range']
      refine List.map_congr_left fun id own => ?_
      obtain ⟨lower, upper⟩ := List.mem_range'_1.mp own
      change exchange _ _ _ _ = _
      rw [exchange, if_neg (by omega), if_pos upper, Nat.add_comm]
    have of_second : (List.range' (start + count first) (count second)).map
        (exchanges start (count first) (count second)) = List.range' start (count second) := by
      rw [Nat.add_comm start, ← List.map_add_range', List.map_map]
      refine (List.map_congr_left fun id own => ?_).trans (List.map_id _)
      obtain ⟨lower, upper⟩ := List.mem_range'_1.mp own
      change exchange start _ _ (count first + id) = id
      rw [exchange, if_neg (by omega), if_neg (by omega), if_pos (by omega),
        Nat.add_sub_cancel_left]
    have of_others : ((allotted count (start + count first + count second) items).map fun entry =>
        (entry.1, entry.2.map (exchanges start (count first) (count second)))) =
          allotted count (start + count first + count second) items := by
      refine (List.map_congr_left fun entry listed => ?_).trans (List.map_id _)
      have fixed : entry.2.map (exchanges start (count first) (count second)) = entry.2 :=
        (List.map_congr_left fun id own => later id (le_of_mem_allotted listed own)).trans
          (List.map_id _)
      rw [fixed]
      rfl
    simp only [allotted, List.map_cons, of_first, of_second, of_others]
    rw [Nat.add_right_comm start (count first)]
    exact .swap _ _ _

theorem trans (earlier : Renumbers count start items middle moved)
    (later : Renumbers count start middle others next) (order : items.Perm middle) :
    Renumbers count start items others (moved.trans next) where
  below id old := by
    rw [Equiv.trans_apply, earlier.below id old, later.below id old]
  beyond id new := by
    rw [Equiv.trans_apply, earlier.beyond id new]
    exact later.beyond id ((order.map count).sum_nat ▸ new)
  numbers := by
    have mapped := (earlier.numbers.map fun entry => (entry.1, entry.2.map next)).trans later.numbers
    simpa [Function.comp_def] using mapped

variable (renumbers : Renumbers count start items others moved)
include renumbers

theorem perm : items.Perm others := by
  have order := renumbers.numbers.map Prod.fst
  rw [List.map_map] at order
  exact (map_fst_allotted count start items ▸ map_fst_allotted count start others ▸ order :)

theorem le_moved {id : Nat} (new : start ≤ id) : start ≤ moved id := by
  by_contra old
  have fixed := moved.injective (renumbers.below _ (Nat.lt_of_not_le old))
  exact old (fixed.symm ▸ new)

/-- What items consist of has the corresponding numbers in the other order. -/
theorem zipIdx_perm (parts : α → List β) (lengths : ∀ item, (parts item).length = count item) :
    (((items.flatMap parts).zipIdx start).map fun entry => (entry.1, moved entry.2)).Perm
      ((others.flatMap parts).zipIdx start) := by
  have order := renumbers.numbers.flatMap_right fun entry => (parts entry.1).zip entry.2
  have split (entry : α × List Nat) : (parts entry.1).zip (entry.2.map moved) =
      ((parts entry.1).zip entry.2).map fun pair => (pair.1, moved pair.2) :=
    List.zip_map_right ..
  simp only [List.flatMap_map, split] at order
  rwa [← List.map_flatMap, flatMap_allotted lengths, flatMap_allotted lengths] at order

/-- What stands at a number stands at the corresponding one in the other order. -/
theorem getElem?_eq (parts : α → List β) (lengths : ∀ item, (parts item).length = count item)
    {id : Nat} (new : start ≤ id) :
    (others.flatMap parts)[moved id - start]? = (items.flatMap parts)[id - start]? := by
  ext part
  have listed := (renumbers.zipIdx_perm parts lengths).mem_iff (a := (part, moved id))
  rw [List.mk_mem_zipIdx_iff_le_and_getElem?_sub, and_iff_right (renumbers.le_moved new),
    List.mem_map] at listed
  rw [← listed]
  constructor
  · rintro ⟨⟨other, number⟩, member, same⟩
    obtain ⟨rfl, number_eq⟩ := Prod.mk.inj same
    cases moved.injective number_eq
    exact (List.mk_mem_zipIdx_iff_le_and_getElem?_sub.mp member).2
  · intro found
    exact ⟨(part, id), List.mk_mem_zipIdx_iff_le_and_getElem?_sub.mpr ⟨new, found⟩, rfl⟩

end Renumbers

theorem exists_renumbers {items others : List α} (order : items.Perm others) (start : Nat) :
    ∃ moved, Renumbers count start items others moved := by
  induction order generalizing start with
  | nil => exact ⟨_, .refl []⟩
  | cons item _ ih =>
      obtain ⟨moved, renumbers⟩ := ih (start + count item)
      exact ⟨moved, renumbers.cons item⟩
  | swap first second items => exact ⟨_, .swap second first items⟩
  | trans first _ earlier later =>
      obtain ⟨moved, before⟩ := earlier start
      obtain ⟨next, after⟩ := later start
      exact ⟨_, before.trans after first⟩

end Relock
