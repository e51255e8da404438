import Relock.Proofs.Renaming.Frame
import Relock.Proofs.Renaming.Lockstep
import Relock.Proofs.Resolution.Coherence

/-!
# Tables that grow on one side

When only one of two matching tables goes on, it gets entities that the other does not have. The
numbers that come next correspond no longer, so the renaming has to move what is still to come.
What the tables mention already keeps its number.
-/

namespace Relock

namespace Renaming

/-- The renamings differ at most in the numbers of entities that are still to come. -/
structure Continues (more moved : Renaming) (size : Nat) : Prop where
  file : more.file = moved.file
  package : more.package = moved.package
  symbol : ∀ id, id < size → more.symbol id = moved.symbol id

namespace Continues

variable {more moved : Renaming} {size : Nat} (continues : more.Continues moved size)
include continues

theorem ref_eq (ref : NamedRef) : ref.rename more = ref.rename moved := by
  rw [NamedRef.rename, NamedRef.rename, continues.package]

theorem type_eq (type : TypeRef) : type.rename more = type.rename moved := by
  induction type with
  | named ref => rw [TypeRef.rename, TypeRef.rename, continues.ref_eq]
  | pointer target ih | funcOf result ih => rw [TypeRef.rename, TypeRef.rename, ih]
  | func | basic | unknown => rfl

theorem symbol_rename_eq (symbol : Symbol) : symbol.rename more = symbol.rename moved := by
  have kind : symbol.kind.rename more = symbol.kind.rename moved := by
    cases symbol.kind with
    | method receiver
    | interfaceMethod type => rw [SymbolKind.rename, SymbolKind.rename, continues.type_eq]
    | package target => rw [SymbolKind.rename, SymbolKind.rename, continues.package]
    | _ => rfl
  rw [Symbol.rename, Symbol.rename, kind, continues.package, continues.type_eq, continues.file]

theorem node_eq (node : NodeId) : node.renumber more.file = node.renumber moved.file := by
  rw [continues.file]

theorem map_eq {found : Option SymbolId} (old : ∀ id, found = some id → id < size) :
    found.map more.symbol = found.map moved.symbol := by
  cases found with
  | none => rfl
  | some id => rw [Option.map_some, Option.map_some, continues.symbol id (old id rfl)]

/-- What files see goes by the new renaming as well. -/
theorem scope {left right : FileScope} (same : left.Matches moved right)
    (old : ∀ (name : String) id, left.imports[name]? = some id → id < size) :
    left.Matches more right where
  package := by rw [same.package, continues.package]
  imports name := by rw [same.imports name, continues.map_eq (old name)]

end Continues

end Renaming

/-- The entities in what a named type is made of have numbers below the given one. -/
def Underlying.Below (size : Nat) : Underlying → Prop
  | struct fields => ∀ field ∈ fields, field.symbol < size
  | interface methods => ∀ (name : String) id, methods[name]? = some id → id < size
  | other _ => True

theorem Renaming.Continues.underlying {more moved : Renaming} {size : Nat}
    (continues : more.Continues moved size) {left right : Underlying} (below : left.Below size)
    (renamed : left.Renamed moved right) : left.Renamed more right := by
  cases left <;> cases right <;> try exact renamed.elim
  case struct fields others =>
    have others_eq : others = fields.map (FieldInfo.rename moved) := renamed
    refine others_eq.trans (List.map_congr_left fun field listed => ?_)
    rw [FieldInfo.rename, FieldInfo.rename, continues.symbol _ (below field listed),
      continues.type_eq]
  case interface methods others =>
    intro name
    rw [renamed name, continues.map_eq (below name)]
  case other type another => exact renamed.trans (continues.type_eq type).symm

namespace Tables

/-- All entities that the tables mention exist. -/
structure Bounded (tables : Tables) : Prop where
  lookup : ∀ package name id, tables.lookup package name = some id → id < tables.symbols.size
  uses : ∀ (node : NodeId) id, tables.uses[node]? = some id → id < tables.symbols.size
  selections : ∀ (node : NodeId) id, tables.selections[node]? = some id → id < tables.symbols.size
  underlying : ∀ (ref : NamedRef) type, tables.named[ref]? = some type →
    type.underlying.Below tables.symbols.size
  methods : ∀ (ref : NamedRef) type (name : String) id, tables.named[ref]? = some type →
    type.methods[name]? = some id → id < tables.symbols.size

theorem Coherent.bounded {tables : Tables} {declared : List (PackageId × FuncDecl)}
    (coherent : tables.Coherent) (refers : tables.Refers declared) : tables.Bounded where
  lookup package name id found := by
    obtain ⟨kind, known, -⟩ := coherent.member package name id found
    exact lt_size_of_entity? known
  uses node id found := by
    obtain ⟨entity, known⟩ := refers.known node id found
    exact lt_size_of_entity? known
  selections node id found := by
    obtain ⟨entity, known, -⟩ := refers.selection node id found
    exact lt_size_of_entity? known
  underlying ref type found := by
    have made := (coherent.named ref type found).underlying
    revert made
    cases type.underlying with
    | struct fields =>
        intro made field listed
        obtain ⟨package, known⟩ := made field listed
        exact lt_size_of_entity? known
    | interface methods =>
        intro made name id method
        obtain ⟨package, known⟩ := made name id method
        exact lt_size_of_entity? known
    | other type => exact fun _ => trivial
  methods ref type name id found method := by
    obtain ⟨receiver, package, known, -⟩ := (coherent.named ref type found).methods name id method
    exact lt_size_of_entity? known

end Tables

/-- Where only declarations have been looked at, all entities that are mentioned exist. -/
theorem Resolution.bounded_of_changes {declared : List (PackageId × FuncDecl)} {marks : List Mark}
    {tables : Tables}
    (changes : Relation.ReflTransGen (Change declared marks) Predeclared.tables tables) :
    tables.Bounded := by
  have coherent : tables.Coherent :=
    kept_of_steps (fun _ _ change => change.coherent) changes Predeclared.coherent
  have refers : tables.Refers declared :=
    kept_of_steps (fun _ _ change => change.refers) changes (Predeclared.refers declared)
  exact coherent.bounded refers

/-- What the first view shows of the tables on the left, the second shows of what corresponds. -/
structure View.Covers (moved : Renaming) (size : Nat) (view kept : View) : Prop where
  node : ∀ node, view.node node → kept.node (node.renumber moved.file)
  typed : ∀ id, id < size → view.typed id → kept.typed (moved.symbol id)
  member : ∀ package name, view.member package name → kept.member (moved.package package) name
  underlying : ∀ ref, view.underlying ref →
    view.member ref.package ref.name ∧ kept.underlying (ref.rename moved)
  method : ∀ ref name, view.method ref name →
    view.member ref.package ref.name ∧ kept.method (ref.rename moved) name

namespace Tables.Matches

variable {moved : Renaming} {view kept : View} {left right after : Tables}

variable (same : left.Matches moved view right)
include same

/-- Entities that exist on the left correspond to entities that exist on the right. -/
theorem symbol_lt {id : SymbolId} (old : id < left.symbols.size) :
    moved.symbol id < right.symbols.size := by
  by_contra beyond
  have next := same.next (moved.symbol id - right.symbols.size)
  rw [Nat.add_sub_cancel' (Nat.le_of_not_lt beyond)] at next
  have id_eq := moved.symbol_injective next
  exact Nat.lt_irrefl _ (Nat.lt_of_le_of_lt (Nat.le_add_right _ _) (id_eq ▸ old))

theorem exists_named {ref : NamedRef} {type : NamedType} (member : view.member ref.package ref.name)
    (found : left.named[ref]? = some type) :
    ∃ other, right.named[ref.rename moved]? = some other := by
  have known := same.named ref member
  rwa [Std.TreeMap.contains_eq_isSome_getElem?, Std.TreeMap.contains_eq_isSome_getElem?, found,
    Option.isSome_some, Option.isSome_iff_exists] at known

/-- The number of an entity when the entities that are still to come have moved. -/
def realigned (moved : Renaming) (left after : Tables) (id : Nat) : Nat :=
  if id < left.symbols.size then moved.symbol id else after.symbols.size + (id - left.symbols.size)

theorem realigned_injective (grows : right.symbols.size ≤ after.symbols.size) :
    Function.Injective (realigned moved left after) := by
  -- What exists stays below the number from which on the others follow.
  have apart {id : Nat} (old : id < left.symbols.size) (later : Nat) :
      moved.symbol id ≠ after.symbols.size + later := by
    intro equal
    have below : after.symbols.size + later < right.symbols.size := equal ▸ same.symbol_lt old
    omega
  intro first second equal
  unfold realigned at equal
  split at equal <;> split at equal
  · exact moved.symbol_injective equal
  · rename_i old _
    exact absurd equal (apart old _)
  · rename_i old
    exact absurd equal.symm (apart old _)
  · omega

/-- The renaming that leaves room for further entities on the right. -/
def realign (same : left.Matches moved view right)
    (grows : right.symbols.size ≤ after.symbols.size) : Renaming :=
  { moved with
    symbol := realigned moved left after
    symbol_injective := same.realigned_injective grows }

theorem realign_continues (grows : right.symbols.size ≤ after.symbols.size) :
    (same.realign grows).Continues moved left.symbols.size :=
  ⟨rfl, rfl, fun _ old => if_pos old⟩

/-- Tables on the right that go on, and leave alone what corresponds to something on the left, still
match. -/
theorem extend (bounded : left.Bounded) (keeps : right.Keeps kept after)
    (covers : view.Covers moved left.symbols.size kept) :
    left.Matches (same.realign keeps.size) view after := by
  have continues := same.realign_continues keeps.size
  have new (id : Nat) (beyond : ¬id < left.symbols.size) :
      left.symbol? id = none ∧ after.symbol? ((same.realign keeps.size).symbol id) = none := by
    have position : (same.realign keeps.size).symbol id =
        after.symbols.size + (id - left.symbols.size) := if_neg beyond
    rw [position]
    exact ⟨Array.getElem?_eq_none (Nat.le_of_not_lt beyond),
      Array.getElem?_eq_none (Nat.le_add_right _ _)⟩
  exact
  { next := fun count => by
      have beyond : ¬left.symbols.size + count < left.symbols.size := by omega
      have position : (same.realign keeps.size).symbol (left.symbols.size + count) =
          after.symbols.size + (left.symbols.size + count - left.symbols.size) := if_neg beyond
      rw [position, Nat.add_sub_cancel_left]
    fresh := same.fresh
    shape := fun id => by
      by_cases old : id < left.symbols.size
      · rw [continues.symbol id old, keeps.shape _ (same.symbol_lt old), same.shape id]
        exact congrArg (Option.map · (left.symbol? id))
          (funext fun symbol => by rw [continues.symbol_rename_eq])
      · rw [(new id old).1, (new id old).2]
        rfl
    typeOf := fun id typed => by
      rw [continues.type_eq]
      by_cases old : id < left.symbols.size
      · rw [continues.symbol id old,
          keeps.typeOf _ (same.symbol_lt old) (covers.typed id old typed), same.typeOf id typed]
      · rw [Tables.typeOf, Tables.typeOf, (new id old).1, (new id old).2]
        rfl
    types := same.types
    lookup := fun package name seen => by
      rw [continues.package, keeps.lookup _ _ (covers.member package name seen),
        same.lookup package name seen, continues.map_eq (bounded.lookup package name)]
    uses := fun node seen => by
      rw [continues.node_eq, keeps.uses _ (covers.node node seen), same.uses node seen,
        continues.map_eq (bounded.uses node)]
    selections := fun node seen => by
      rw [continues.node_eq, keeps.selections _ (covers.node node seen), same.selections node seen,
        continues.map_eq (bounded.selections node)]
    receivers := fun node seen => by
      rw [continues.node_eq, keeps.receivers _ (covers.node node seen), same.receivers node seen]
      exact congrArg (Option.map · left.receivers[node]?) (funext fun type =>
        (continues.type_eq type).symm)
    named := fun ref seen => by
      rw [continues.ref_eq, keeps.named _ (covers.member ref.package ref.name seen),
        same.named ref seen]
    underlying := fun ref type other seen found other_found => by
      rw [continues.ref_eq] at other_found
      obtain ⟨member, covered⟩ := covers.underlying ref seen
      obtain ⟨old, old_found⟩ := same.exists_named member found
      obtain ⟨new, new_found, underlying, -⟩ := keeps.types _ old old_found
      cases other_found.symm.trans new_found
      rw [underlying covered]
      exact continues.underlying (bounded.underlying ref type found)
        (same.underlying ref type old seen found old_found)
    methods := fun ref type other name seen found other_found => by
      rw [continues.ref_eq] at other_found
      obtain ⟨member, covered⟩ := covers.method ref name seen
      obtain ⟨old, old_found⟩ := same.exists_named member found
      obtain ⟨new, new_found, -, methods⟩ := keeps.types _ old old_found
      cases other_found.symm.trans new_found
      rw [methods name covered, same.methods ref type old name seen found old_found,
        continues.map_eq fun id => bounded.methods ref type name id found] }

end Tables.Matches

/-! ## Numbers that stay -/

section Fixed

variable {moved : Renaming} {count : Nat}
  (fixed : ∀ package, package < count → moved.package package = package)
include fixed

theorem TypeRef.rename_of_isWithin {type : TypeRef} (within : type.isWithin count = true) :
    type.rename moved = type := by
  induction type with
  | named ref =>
      rw [TypeRef.isWithin, decide_eq_true_eq] at within
      rw [TypeRef.rename, NamedRef.rename, fixed _ within]
  | pointer target ih => rw [TypeRef.rename, ih within]
  | funcOf result ih => rw [TypeRef.rename, ih within]
  | func | basic | unknown => rfl

theorem SymbolKind.rename_of_isWithin {kind : SymbolKind} (within : kind.isWithin count = true) :
    kind.rename moved = kind := by
  cases kind with
  | method receiver
  | interfaceMethod interface => rw [SymbolKind.rename, TypeRef.rename_of_isWithin fixed within]
  | package target =>
      rw [SymbolKind.isWithin, decide_eq_true_eq] at within
      rw [SymbolKind.rename, fixed _ within]
  | var | field | func | builtin | typeName => rfl

theorem Symbol.rename_of_isWithin {symbol : Symbol}
    (decl : symbol.decl.map (NodeId.renumber moved.file) = symbol.decl)
    (within : symbol.isWithin count = true) : symbol.rename moved = symbol := by
  obtain ⟨package, kind, type⟩ := Symbol.isWithin_iff.mp within
  rw [Symbol.rename, fixed _ package, SymbolKind.rename_of_isWithin fixed kind,
    TypeRef.rename_of_isWithin fixed type, decl]

theorem Underlying.renamed_of_isWithin (symbols : moved.symbol = id) {underlying : Underlying}
    (within : underlying.isWithin count = true) : underlying.Renamed moved underlying := by
  cases underlying with
  | struct fields =>
      rw [Underlying.isWithin, List.all_eq_true] at within
      have same : ∀ field ∈ fields, field.rename moved = field := fun field listed => by
        rw [FieldInfo.rename, symbols, TypeRef.rename_of_isWithin fixed (within field listed)]
        rfl
      exact ((List.map_congr_left same).trans (List.map_id fields)).symm
  | interface methods =>
      intro name
      rw [symbols, Option.map_id_apply]
  | other type => exact (TypeRef.rename_of_isWithin fixed within).symm

end Fixed

end Relock
