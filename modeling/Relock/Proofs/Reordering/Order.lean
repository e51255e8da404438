import Mathlib.Data.List.Induction
import Mathlib.Data.List.Perm.Subperm
import Relock.Proofs.Reordering.Swap

/-!
# Rounds in any order

A round takes the tables through the files one by one. If any two neighbours can change places, the
order of the files does not matter for what the tables say. Two files can change places when each of
them leaves alone what the other is about, and does the same in tables that the other has changed.
-/

namespace Relock

/-- Two of the items that stand one after the other, with those before them. -/
def Adjacent {α : Type} (all earlier : List α) (first second : α) : Prop :=
  (earlier ++ [first, second]).Subperm all

namespace Adjacent

variable {α : Type} {all earlier rest : List α} {first second : α}

theorem of_perm (whole : (earlier ++ first :: second :: rest).Perm all) :
    Adjacent all earlier first second :=
  ((List.Sublist.refl earlier).append (by simp)).subperm.trans whole.subperm

variable (adjacent : Adjacent all earlier first second)
include adjacent

theorem symm : Adjacent all earlier second first :=
  ((List.Perm.swap _ _ _).append_left earlier).subperm.trans adjacent

theorem before : earlier.Subperm all :=
  (List.sublist_append_left earlier _).subperm.trans adjacent

theorem with_first : (earlier ++ [first]).Subperm all :=
  ((List.Sublist.refl earlier).append (by simp)).subperm.trans adjacent

theorem with_both : (earlier ++ [first] ++ [second]).Subperm all := by
  rw [List.append_assoc]
  exact adjacent

theorem pair : [first, second].Subperm all :=
  (List.sublist_append_right earlier _).subperm.trans adjacent

theorem first_mem : first ∈ all := adjacent.pair.subset List.mem_cons_self

end Adjacent

namespace Tables

variable {α : Type} (step : α → Tables → Tables)

/-- The tables after the items, one after the other. -/
def afterAll (items : List α) (tables : Tables) : Tables :=
  items.foldl (fun tables item => step item tables) tables

variable {step} {start : Tables} {all : List α}

theorem afterAll_append (items more : List α) (tables : Tables) :
    afterAll step (items ++ more) tables = afterAll step more (afterAll step items tables) :=
  List.foldl_append

theorem afterAll_concat (items : List α) (item : α) (tables : Tables) :
    afterAll step (items ++ [item]) tables = step item (afterAll step items tables) :=
  afterAll_append items [item] tables

/-! ## Neighbours that change places -/

section Along

variable
  (along : ∀ items others item, (items ++ [item]).Subperm all → (others ++ [item]).Subperm all →
    Same start.symbols.size (afterAll step items start) (afterAll step others start) →
    Same start.symbols.size (afterAll step (items ++ [item]) start)
      (afterAll step (others ++ [item]) start))
include along

/-- What follows does not tell apart tables that say the same. -/
theorem Same.append {items others : List α} (rest : List α) (whole : (items ++ rest).Subperm all)
    (other_whole : (others ++ rest).Subperm all)
    (same : Same start.symbols.size (afterAll step items start) (afterAll step others start)) :
    Same start.symbols.size (afterAll step (items ++ rest) start)
      (afterAll step (others ++ rest) start) := by
  induction rest generalizing items others with
  | nil => simpa using same
  | cons item rest ih =>
      rw [List.append_cons] at whole other_whole ⊢
      rw [List.append_cons others]
      have shorter (items : List α) : (items ++ [item]).Subperm (items ++ [item] ++ rest) :=
        (List.sublist_append_left _ rest).subperm
      exact ih whole other_whole (along items others item ((shorter items).trans whole)
        ((shorter others).trans other_whole) same)

/-- If any two neighbours can change places, the order does not matter. That may rest on what is
already known of the order in which they are neighbours. -/
theorem Same.of_perm
    (swap : ∀ earlier first second rest, (earlier ++ first :: second :: rest).Perm all →
      Same start.symbols.size (afterAll step all start)
        (afterAll step (earlier ++ first :: second :: rest) start) →
      Same start.symbols.size (afterAll step (earlier ++ [first, second]) start)
        (afterAll step (earlier ++ [second, first]) start))
    {others : List α} (order : others.Perm all) :
    Same start.symbols.size (afterAll step all start) (afterAll step others start) := by
  -- The items before those that change places are carried along.
  have behind {items others : List α} (order : items.Perm others) (earlier : List α)
      (whole : (earlier ++ items).Perm all)
      (known : Same start.symbols.size (afterAll step all start)
        (afterAll step (earlier ++ items) start)) :
      Same start.symbols.size (afterAll step all start)
        (afterAll step (earlier ++ others) start) := by
    induction order generalizing earlier with
    | nil => exact known
    | @cons item items others _ ih =>
        rw [List.append_cons] at whole known ⊢
        exact ih (earlier ++ [item]) whole known
    | swap first second rest =>
        have regroup (one two : α) :
            earlier ++ one :: two :: rest = earlier ++ [one, two] ++ rest := by simp
        have other : (earlier ++ first :: second :: rest).Perm all :=
          ((List.Perm.swap second first rest).append_left earlier).trans whole
        have swapped := swap earlier second first rest whole known
        rw [regroup] at whole other known ⊢
        exact known.trans (swapped.append along rest whole.subperm other.subperm)
    | trans first _ ih later =>
        exact later earlier ((first.append_left earlier).symm.trans whole) (ih earlier whole known)
  exact behind order.symm [] (.refl all) (.refl _ _)

end Along

/-! ## Items that leave each other alone -/

/-- The items of a round can be taken in any order. Each has a view of what it leaves alone, and does
the same in tables that match in a view that fits it. -/
structure Orderly (step : α → Tables → Tables) (start : Tables) (all : List α) (view : α → View)
    (fits : View → α → Prop) : Prop where
  /-- The tables refer only to entities that exist. -/
  bounded : ∀ items, items.Subperm all → (afterAll step items start).Bounded
  /-- An item leaves alone what its view shows. -/
  keeps : ∀ items item, (items ++ [item]).Subperm all →
    (afterAll step items start).Keeps (view item) (afterAll step (items ++ [item]) start)
  /-- The view shows what is new, and with a type its parts. -/
  closed : ∀ items item, (items ++ [item]).Subperm all →
    (view item).Closed (afterAll step items start)
  /-- An item does the same in tables that match in a view that fits it. -/
  along : ∀ items others item, (items ++ [item]).Subperm all → (others ++ [item]).Subperm all →
    ∀ moved view, fits view item → moved.Continues .refl start.symbols.size →
      (afterAll step items start).Matches moved view (afterAll step others start) →
      (afterAll step (items ++ [item]) start).Matches moved view
        (afterAll step (others ++ [item]) start)
  /-- All that there is fits every item. -/
  whole : ∀ item ∈ all, fits {} item
  /-- What an item leaves alone fits the others. -/
  apart : ∀ first second, [first, second].Subperm all → fits (view first) second
  /-- Of two items, one leaves alone what the other does not. -/
  cover : ∀ items first second, (items ++ [first, second]).Subperm all →
    (view first).Cover (view second) (afterAll step (items ++ [first, second]) start)

namespace Orderly

variable {view : α → View} {fits : View → α → Prop} (orderly : Orderly step start all view fits)
  {items : List α} {first second : α}
include orderly

theorem size_le (some_items : items.Subperm all) :
    start.symbols.size ≤ (afterAll step items start).symbols.size := by
  induction items using List.reverseRecOn with
  | nil => exact Nat.le_refl _
  | append_singleton items item ih =>
      have fewer := (List.sublist_append_left items [item]).subperm.trans some_items
      exact Nat.le_trans (ih fewer) (orderly.keeps items item some_items).size

/-- The second of two items does the same if the first one is left out. -/
theorem past (adjacent : Adjacent all items first second) :
    ∃ grows : (afterAll step items start).symbols.size ≤
        (afterAll step (items ++ [first]) start).symbols.size,
      (afterAll step (items ++ [second]) start).Matches (.shifting grows) (view first)
        (afterAll step (items ++ [first, second]) start) := by
  have keeps := orderly.keeps items first adjacent.with_first
  have continues := (Swapped.shifting_continues keeps.size).mono (orderly.size_le adjacent.before)
  have along := orderly.along items (items ++ [first]) second adjacent.symm.with_first
    adjacent.with_both _ _ (orderly.apart first second adjacent.pair) continues
    (keeps.matches_shifting (orderly.bounded items adjacent.before)
      (orderly.closed items first adjacent.with_first))
  exact ⟨keeps.size, by simpa using along⟩

theorem swapped (adjacent : Adjacent all items first second) :
    Swapped (afterAll step items start) (afterAll step (items ++ [first]) start)
      (afterAll step (items ++ [second]) start) (afterAll step (items ++ [first, second]) start)
      (afterAll step (items ++ [second, first]) start) (view first) (view second) := by
  obtain ⟨_, both⟩ := orderly.past adjacent
  obtain ⟨_, other⟩ := orderly.past adjacent.symm
  exact
  { left_keeps := orderly.keeps items first adjacent.with_first
    right_keeps := orderly.keeps items second adjacent.symm.with_first
    left_bounded := orderly.bounded _ adjacent.with_first
    right_bounded := orderly.bounded _ adjacent.symm.with_first
    left_fresh := (orderly.closed items first adjacent.with_first).fresh
    right_fresh := (orderly.closed items second adjacent.symm.with_first).fresh
    both_along := both
    other_along := other
    both_keeps := by simpa using orderly.keeps (items ++ [first]) second adjacent.with_both
    other_keeps := by simpa using orderly.keeps (items ++ [second]) first adjacent.symm.with_both
    cover := orderly.cover items first second adjacent }

theorem same_concat (items others : List α) (item : α) (some_items : (items ++ [item]).Subperm all)
    (other_items : (others ++ [item]).Subperm all)
    (same : Same start.symbols.size (afterAll step items start) (afterAll step others start)) :
    Same start.symbols.size (afterAll step (items ++ [item]) start)
      (afterAll step (others ++ [item]) start) := by
  obtain ⟨moved, continues, matching⟩ := same
  have listed : item ∈ all := some_items.subset (by simp)
  exact ⟨moved, continues, orderly.along items others item some_items other_items moved {}
    (orderly.whole item listed) continues matching⟩

/-- The order of the items does not matter. -/
theorem same {others : List α} (order : others.Perm all) :
    Same start.symbols.size (afterAll step all start) (afterAll step others start) := by
  refine .of_perm orderly.same_concat (fun earlier first second rest whole _ => ?_) order
  have adjacent := Adjacent.of_perm whole
  exact (orderly.swapped adjacent).same.mono (orderly.size_le adjacent.before)

end Orderly

end Tables

end Relock
