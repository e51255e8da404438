import Relock.Proofs.Renaming.Composition

/-!
# Two changes in either order

Two computations each add entities to the tables, and each leaves alone what the other is about. Then
it does not matter which of them comes first, except for the numbers of the entities: those of the
first and those of the second are two adjacent blocks, which exchange places.
-/

namespace Relock

variable {start after id other : Nat}

/-! ## Blocks of numbers -/

/-- The numbers of two adjacent blocks exchange places. -/
def exchange (start first second id : Nat) : Nat :=
  if id < start then id
  else if id < start + first then id + second
  else if id < start + first + second then id - first
  else id

theorem exchange_exchange (start first second id : Nat) :
    exchange start second first (exchange start first second id) = id := by
  unfold exchange
  split_ifs <;> omega

theorem exchange_injective (start first second : Nat) :
    Function.Injective (exchange start first second) :=
  Function.LeftInverse.injective (exchange_exchange start first second)

/-- The numbers from the given one on move on, so that there is room for others. -/
def shift (start after id : Nat) : Nat := if id < start then id else after + (id - start)

theorem shift_injective (grows : start ≤ after) :
    Function.Injective (shift start after) := by
  intro first second same
  unfold shift at same
  split_ifs at same <;> omega

theorem shift_of_le (new : start ≤ id) :
    shift start after id = after + (id - start) := if_neg (Nat.not_lt.mpr new)

/-- What is in the first block moves beyond the second. -/
theorem exchange_of_lt (grows : start ≤ other) (old : id < after) :
    exchange start (after - start) (other - start) id = shift start other id := by
  unfold exchange shift
  split_ifs <;> omega

/-- What has moved beyond the first block moves back. -/
theorem exchange_shift (grows : start ≤ after) (old : id < other) :
    exchange start (after - start) (other - start) (shift start after id) = id := by
  unfold exchange shift
  split_ifs <;> omega

theorem exchange_of_le (grows : start ≤ after) (new : after + (other - start) ≤ id) :
    exchange start (after - start) (other - start) id = id := by
  unfold exchange
  split_ifs <;> omega

/-- A number stands in the first block or before it, or has moved beyond the first block, or comes
after both blocks. -/
theorem exists_shift_eq (grows : start ≤ other) :
    id < after ∨ (∃ old, start ≤ old ∧ old < other ∧ shift start after old = id) ∨
      after + (other - start) ≤ id := by
  by_cases first : id < after
  · exact .inl first
  · by_cases beyond : after + (other - start) ≤ id
    · exact .inr (.inr beyond)
    · refine .inr (.inl ⟨start + (id - after), Nat.le_add_right _ _, by omega, ?_⟩)
      rw [shift_of_le (Nat.le_add_right _ _)]
      omega

namespace Renaming

/-- The entities of two adjacent blocks exchange places. -/
def exchanging (start first second : Nat) : Renaming :=
  { refl with
    symbol := exchange start first second
    symbol_injective := exchange_injective start first second }

/-- The entities with numbers from the given one on get later numbers. -/
def shifting {start after : Nat} (grows : start ≤ after) : Renaming :=
  { refl with
    symbol := shift start after
    symbol_injective := shift_injective grows }

end Renaming

/-- Numbers of entities that move and move back. -/
theorem Underlying.Renamed.undo {moved back : Renaming} {size : Nat}
    (types : ∀ type : TypeRef, (type.rename moved).rename back = type)
    (undo : ∀ id, id < size → back.symbol (moved.symbol id) = id) {left right : Underlying}
    (below : left.Below size) (renamed : left.Renamed moved right) : right.Renamed back left := by
  cases left <;> cases right <;> try exact renamed.elim
  case struct fields others =>
    have others_eq : others = fields.map (FieldInfo.rename moved) := renamed
    have same : ∀ field ∈ fields, (field.rename moved).rename back = field := by
      intro field listed
      rw [FieldInfo.rename, FieldInfo.rename, undo _ (below field listed), types]
    rw [Underlying.Renamed, others_eq, List.map_map]
    exact ((List.map_congr_left same).trans (List.map_id fields)).symm
  case interface methods others =>
    intro name
    rw [renamed name, Option.map_map]
    cases found : methods[name]? with
    | none => rfl
    | some id => exact congrArg some (undo id (below name id found)).symm
  case other type another =>
    have another_eq : another = type.rename moved := renamed
    rw [Underlying.Renamed, another_eq, types]

/-! ## Tables -/

/-- Whatever there is of the tables, one of two views shows it. -/
structure View.Cover (first second : View) (tables : Tables) : Prop where
  node : ∀ node, first.node node ∨ second.node node
  typed : ∀ id, first.typed id ∨ second.typed id
  member : ∀ package name, first.member package name ∨ second.member package name
  underlying : ∀ ref, tables.named.contains ref = true →
    first.member ref.package ref.name ∧ first.underlying ref ∨
      second.member ref.package ref.name ∧ second.underlying ref
  method : ∀ ref name, tables.named.contains ref = true →
    first.member ref.package ref.name ∧ first.method ref name ∨
      second.member ref.package ref.name ∧ second.method ref name

/-- The view shows the new entities and all types, and of a type no more than of its name. -/
structure View.Closed (view : View) (tables : Tables) : Prop where
  fresh : ∀ count, view.typed (tables.symbols.size + count)
  types : ∀ id symbol, tables.symbol? id = some symbol → symbol.kind = .typeName → view.typed id
  underlying : ∀ ref, view.underlying ref → view.member ref.package ref.name
  method : ∀ ref name, view.method ref name → view.member ref.package ref.name

namespace Tables

variable {tables left right both other : Tables} {first second : View}

/-- Tables and what they become match as far as they have not changed. -/
theorem Keeps.matches_shifting (keeps : tables.Keeps first left) (bounded : tables.Bounded)
    (closed : first.Closed tables) : tables.Matches (.shifting keeps.size) first left :=
  (Matches.refl closed.fresh closed.types).extend bounded keeps
    { node := fun _ => id
      typed := fun _ _ => id
      member := fun _ _ => id
      underlying := fun ref seen => ⟨closed.underlying ref seen, seen⟩
      method := fun ref name seen => ⟨closed.method ref name seen, seen⟩ }

theorem exists_of_contains {ref : NamedRef} (known : tables.named.contains ref = true) :
    ∃ type, tables.named[ref]? = some type := by
  rwa [Std.TreeMap.contains_eq_isSome_getElem?, Option.isSome_iff_exists] at known

theorem contains_of_eq_some {ref : NamedRef} {type : NamedType}
    (found : tables.named[ref]? = some type) : tables.named.contains ref = true := by
  rw [Std.TreeMap.contains_eq_isSome_getElem?, found]
  rfl

/-- A named type that is shown was there before. -/
theorem Keeps.exists_old {view : View} (keeps : left.Keeps view right) {ref : NamedRef}
    {new : NamedType} (seen : view.member ref.package ref.name)
    (found : right.named[ref]? = some new) :
    ∃ old, left.named[ref]? = some old ∧
      (view.underlying ref → new.underlying = old.underlying) ∧
        ∀ name : String, view.method ref name → new.methods[name]? = old.methods[name]? := by
  have known := keeps.named ref seen
  rw [contains_of_eq_some found] at known
  obtain ⟨old, old_found⟩ := exists_of_contains known.symm
  obtain ⟨later, later_found, kept⟩ := keeps.types ref old old_found
  cases found.symm.trans later_found
  exact ⟨old, old_found, kept⟩

/-- The numbers after the first change and then the second, as they are when the second comes
first. -/
def swapping (tables left right : Tables) : Renaming :=
  .exchanging tables.symbols.size (left.symbols.size - tables.symbols.size)
    (right.symbols.size - tables.symbols.size)

/-- Two changes, each of which leaves alone what the other is about: the first leads to the tables on
the left, the second to those on the right, and after that comes the other one. -/
structure Swapped (tables left right both other : Tables) (first second : View) : Prop where
  left_keeps : tables.Keeps first left
  right_keeps : tables.Keeps second right
  left_bounded : left.Bounded
  right_bounded : right.Bounded
  left_fresh : ∀ count, first.typed (tables.symbols.size + count)
  right_fresh : ∀ count, second.typed (tables.symbols.size + count)
  both_along : right.Matches (.shifting left_keeps.size) first both
  other_along : left.Matches (.shifting right_keeps.size) second other
  both_keeps : left.Keeps second both
  other_keeps : right.Keeps first other
  cover : first.Cover second both

namespace Swapped

variable (swapped : Swapped tables left right both other first second)
include swapped

theorem both_size :
    both.symbols.size = left.symbols.size + (right.symbols.size - tables.symbols.size) :=
  (swapped.both_along.next 0).symm.trans (shift_of_le swapped.right_keeps.size)

theorem other_size :
    other.symbols.size = right.symbols.size + (left.symbols.size - tables.symbols.size) :=
  (swapped.other_along.next 0).symm.trans (shift_of_le swapped.left_keeps.size)

theorem other_size_eq : other.symbols.size = both.symbols.size := by
  have left_size := swapped.left_keeps.size
  have right_size := swapped.right_keeps.size
  rw [swapped.both_size, swapped.other_size]
  omega

/-! ### Numbers -/

omit swapped in
theorem swapping_continues : (swapping tables left right).Continues .refl tables.symbols.size :=
  ⟨rfl, rfl, fun _ old => if_pos old⟩

/-- What the first change adds gets the numbers that it gets after the second. -/
theorem continues : (swapping tables left right).Continues (.shifting swapped.right_keeps.size)
    left.symbols.size :=
  ⟨rfl, rfl, fun _ old => exchange_of_lt swapped.right_keeps.size old⟩

/-- What the second change adds gets the numbers that it has without the first. -/
theorem undo (old : id < right.symbols.size) : (swapping tables left right).symbol
    ((Renaming.shifting swapped.left_keeps.size).symbol id) = id :=
  exchange_shift swapped.left_keeps.size old

theorem map_undo {found : Option SymbolId} (old : ∀ id, found = some id → id < right.symbols.size) :
    (found.map (Renaming.shifting swapped.left_keeps.size).symbol).map
      (swapping tables left right).symbol = found := by
  cases found with
  | none => rfl
  | some id => exact congrArg some (swapped.undo (old id rfl))

omit swapped in
theorem rename_type (type : TypeRef) : type.rename (swapping tables left right) = type :=
  swapping_continues.rename_type type

omit swapped in
theorem rename_symbol (symbol : Symbol) : symbol.rename (swapping tables left right) = symbol :=
  swapping_continues.rename_symbol symbol

omit swapped in
theorem shifting_continues (grows : start ≤ after) :
    (Renaming.shifting grows).Continues .refl start :=
  ⟨rfl, rfl, fun _ old => if_pos old⟩

/-! ### Entities -/

/-- An entity is there after the first change, or the second one has added it, or it is none. -/
theorem place (id : SymbolId) : id < left.symbols.size ∨
    (∃ new, tables.symbols.size ≤ new ∧ new < right.symbols.size ∧
      (Renaming.shifting swapped.left_keeps.size).symbol new = id) ∨ both.symbols.size ≤ id := by
  rw [swapped.both_size]
  exact exists_shift_eq swapped.right_keeps.size

theorem symbol?_beyond {id : SymbolId} (beyond : both.symbols.size ≤ id) :
    both.symbol? id = none ∧ other.symbol? ((swapping tables left right).symbol id) = none := by
  have fixed : (swapping tables left right).symbol id = id :=
    exchange_of_le swapped.left_keeps.size (swapped.both_size ▸ beyond)
  rw [fixed]
  exact ⟨Array.getElem?_eq_none beyond,
    Array.getElem?_eq_none (swapped.other_size_eq ▸ beyond)⟩

theorem shape (id : SymbolId) :
    (other.symbol? ((swapping tables left right).symbol id)).map Symbol.untyped =
      (both.symbol? id).map Symbol.untyped := by
  rcases swapped.place id with old | ⟨new, -, below, rfl⟩ | beyond
  · have renamed := swapped.other_along.shape id
    simp only [(shifting_continues _).rename_symbol] at renamed
    rw [swapped.continues.symbol id old, renamed, swapped.both_keeps.shape id old]
  · have renamed := swapped.both_along.shape new
    simp only [(shifting_continues _).rename_symbol] at renamed
    rw [swapped.undo below, renamed, swapped.other_keeps.shape new below]
  · obtain ⟨missing, other_missing⟩ := swapped.symbol?_beyond beyond
    rw [missing, other_missing]

theorem typeOf (id : SymbolId) :
    other.typeOf ((swapping tables left right).symbol id) = both.typeOf id := by
  have of_first {id : SymbolId} (below : id < right.symbols.size) (typed : first.typed id) :
      other.typeOf id = both.typeOf ((Renaming.shifting swapped.left_keeps.size).symbol id) := by
    rw [swapped.both_along.typeOf id typed, (shifting_continues _).rename_type,
      swapped.other_keeps.typeOf id below typed]
  have of_second (old : id < left.symbols.size) (typed : second.typed id) :
      other.typeOf ((swapping tables left right).symbol id) = both.typeOf id := by
    rw [swapped.continues.symbol id old, swapped.other_along.typeOf id typed,
      (shifting_continues _).rename_type, swapped.both_keeps.typeOf id old typed]
  rcases swapped.place id with old | ⟨new, later, below, rfl⟩ | beyond
  · by_cases earlier : id < tables.symbols.size
    · rcases swapped.cover.typed id with typed | typed
      · have kept : (Renaming.shifting swapped.left_keeps.size).symbol id = id :=
          (shifting_continues _).symbol id earlier
        have below := Nat.lt_of_lt_of_le earlier swapped.right_keeps.size
        rw [swapping_continues.symbol id earlier]
        exact (of_first below typed).trans (congrArg both.typeOf kept)
      · exact of_second old typed
    · have fresh := swapped.right_fresh (id - tables.symbols.size)
      rw [Nat.add_sub_cancel' (Nat.le_of_not_lt earlier)] at fresh
      exact of_second old fresh
  · have fresh := swapped.left_fresh (new - tables.symbols.size)
    rw [Nat.add_sub_cancel' later] at fresh
    rw [swapped.undo below]
    exact of_first below fresh
  · obtain ⟨missing, other_missing⟩ := swapped.symbol?_beyond beyond
    rw [Tables.typeOf, Tables.typeOf, missing, other_missing]

/-! ### Records and members -/

/-- What is shown by the view that does not depend on the first change. -/
theorem map_eq_of_first {found both_found other_found : Option SymbolId}
    (old : ∀ id, found = some id → id < right.symbols.size)
    (along : both_found = found.map (Renaming.shifting swapped.left_keeps.size).symbol)
    (kept : other_found = found) :
    other_found = both_found.map (swapping tables left right).symbol := by
  rw [along, swapped.map_undo old, kept]

theorem map_eq_of_second {found both_found other_found : Option SymbolId}
    (old : ∀ id, found = some id → id < left.symbols.size)
    (along : other_found = found.map (Renaming.shifting swapped.right_keeps.size).symbol)
    (kept : both_found = found) :
    other_found = both_found.map (swapping tables left right).symbol := by
  rw [along, kept, swapped.continues.map_eq old]

theorem lookup (package : PackageId) (name : String) : other.lookup package name =
    (both.lookup package name).map (swapping tables left right).symbol := by
  rcases swapped.cover.member package name with seen | seen
  · exact swapped.map_eq_of_first (swapped.right_bounded.lookup package name)
      (swapped.both_along.lookup package name seen) (swapped.other_keeps.lookup package name seen)
  · exact swapped.map_eq_of_second (swapped.left_bounded.lookup package name)
      (swapped.other_along.lookup package name seen) (swapped.both_keeps.lookup package name seen)

theorem uses (node : NodeId) :
    other.uses[node]? = both.uses[node]?.map (swapping tables left right).symbol := by
  rcases swapped.cover.node node with seen | seen
  · exact swapped.map_eq_of_first (swapped.right_bounded.uses node)
      (swapped.both_along.uses node seen) (swapped.other_keeps.uses node seen)
  · exact swapped.map_eq_of_second (swapped.left_bounded.uses node)
      (swapped.other_along.uses node seen) (swapped.both_keeps.uses node seen)

theorem selections (node : NodeId) :
    other.selections[node]? = both.selections[node]?.map (swapping tables left right).symbol := by
  rcases swapped.cover.node node with seen | seen
  · exact swapped.map_eq_of_first (swapped.right_bounded.selections node)
      (swapped.both_along.selections node seen) (swapped.other_keeps.selections node seen)
  · exact swapped.map_eq_of_second (swapped.left_bounded.selections node)
      (swapped.other_along.selections node seen) (swapped.both_keeps.selections node seen)

theorem receivers (node : NodeId) : other.receivers[node]? = both.receivers[node]? := by
  have types {start after : Nat} (grows : start ≤ after) :
      TypeRef.rename (Renaming.shifting grows) = id :=
    funext (shifting_continues grows).rename_type
  rcases swapped.cover.node node with seen | seen
  · have along := swapped.both_along.receivers node seen
    rw [types, Option.map_id_apply] at along
    exact (swapped.other_keeps.receivers node seen).trans along.symm
  · have along := swapped.other_along.receivers node seen
    rw [types, Option.map_id_apply] at along
    exact along.trans (swapped.both_keeps.receivers node seen).symm

/-! ### Named types -/

theorem named (ref : NamedRef) : other.named.contains ref = both.named.contains ref := by
  rcases swapped.cover.member ref.package ref.name with seen | seen
  · exact (swapped.other_keeps.named ref seen).trans (swapped.both_along.named ref seen).symm
  · exact (swapped.other_along.named ref seen).trans (swapped.both_keeps.named ref seen).symm

section Named

variable {ref : NamedRef} {type another : NamedType} (found : both.named[ref]? = some type)
  (other_found : other.named[ref]? = some another)
include found other_found

theorem underlying :
    type.underlying.Renamed (swapping tables left right) another.underlying := by
  rcases swapped.cover.underlying ref (contains_of_eq_some found) with
    ⟨member, seen⟩ | ⟨member, seen⟩
  · obtain ⟨old, old_found, kept, -⟩ := swapped.other_keeps.exists_old member other_found
    have renamed := swapped.both_along.underlying ref old type seen old_found found
    rw [kept seen]
    refine renamed.undo (fun type => ?_) (fun id old => swapped.undo old)
      (swapped.right_bounded.underlying ref old old_found)
    rw [(shifting_continues _).rename_type, rename_type]
  · obtain ⟨old, old_found, kept, -⟩ := swapped.both_keeps.exists_old member found
    rw [kept seen]
    exact swapped.continues.underlying (swapped.left_bounded.underlying ref old old_found)
      (swapped.other_along.underlying ref old another seen old_found other_found)

theorem methods (name : String) : another.methods[name]? =
    type.methods[name]?.map (swapping tables left right).symbol := by
  rcases swapped.cover.method ref name (contains_of_eq_some found) with
    ⟨member, seen⟩ | ⟨member, seen⟩
  · obtain ⟨old, old_found, -, kept⟩ := swapped.other_keeps.exists_old member other_found
    exact swapped.map_eq_of_first
      (fun id => swapped.right_bounded.methods ref old name id old_found)
      (swapped.both_along.methods ref old type name seen old_found found) (kept name seen)
  · obtain ⟨old, old_found, -, kept⟩ := swapped.both_keeps.exists_old member found
    exact swapped.map_eq_of_second
      (fun id => swapped.left_bounded.methods ref old name id old_found)
      (swapped.other_along.methods ref old another name seen old_found other_found) (kept name seen)

end Named

/-- The two changes can be made in either order. -/
theorem same : Same tables.symbols.size both other := by
  refine ⟨swapping tables left right, swapping_continues, ?_⟩
  exact
  { next := fun count => by
      rw [swapped.other_size_eq]
      refine exchange_of_le swapped.left_keeps.size ?_
      rw [swapped.both_size]
      exact Nat.le_add_right _ _
    fresh := fun _ => trivial
    shape := fun id => by
      simp only [rename_symbol]
      exact swapped.shape id
    typeOf := fun id _ => by
      rw [rename_type]
      exact swapped.typeOf id
    types := fun _ _ _ _ => trivial
    lookup := fun package name _ => swapped.lookup package name
    uses := fun node _ => swapped.uses node
    selections := fun node _ => swapped.selections node
    receivers := fun node _ => by
      have types : TypeRef.rename (swapping tables left right) = id := funext rename_type
      rw [types, Option.map_id_apply]
      exact swapped.receivers node
    named := fun ref _ => swapped.named ref
    underlying := fun ref type other _ found other_found => swapped.underlying found other_found
    methods := fun ref type other name _ found other_found =>
      swapped.methods found other_found name }

end Swapped

end Tables

end Relock
