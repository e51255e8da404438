import Relock.Proofs.Callee.Declaration
import Relock.Proofs.Renaming.Tracking

/-!
# Keys under other numbers

A key holds the numbers of packages as digits within a text. Where names have no colons the numbers
can be read off, so callees have the same key exactly if they have the same key under other numbers,
and the declarations that keys lead to correspond.
-/

namespace Relock

variable (moved : Renaming)

theorem TypeRef.isPlain_rename (type : TypeRef) : (type.rename moved).isPlain = type.isPlain := by
  rw [isPlain, isPlain, base_rename]
  cases type.base <;> rfl

namespace Callee

variable {type left right : TypeRef} {ref : NamedRef} {callee : Callee} {id : SymbolId}
  {symbol : Symbol}

theorem typeKey_rename_of_unnamed (unnamed : type.named? = none) :
    typeKey (type.rename moved) = typeKey type := by
  rw [TypeRef.named?] at unnamed
  rw [typeKey, typeKey, TypeRef.base_rename]
  cases base : type.base <;> simp [base, TypeRef.rename] at unnamed ⊢

theorem typeKey_eq_of_named? (left_named : left.named? = some ref)
    (right_named : right.named? = some ref) : typeKey left = typeKey right := by
  rw [typeKey, typeKey, TypeRef.base_of_named? left_named, TypeRef.base_of_named? right_named]

/-- A type has the key of a named type exactly if it does so under other numbers. -/
theorem typeKey_rename_iff_of_named (named : left.named? = some ref)
    (plain : right.isPlain = true) :
    typeKey (left.rename moved) = typeKey (right.rename moved) ↔ typeKey left = typeKey right := by
  have renamed : (left.rename moved).named? = some (ref.rename moved) := by
    rw [TypeRef.named?_rename, named, Option.map_some]
  constructor
  · intro same
    have other := named?_of_typeKey_eq renamed (by rwa [TypeRef.isPlain_rename]) same
    rw [TypeRef.named?_rename] at other
    obtain ⟨own, own_eq, same_ref⟩ := Option.map_eq_some_iff.mp other
    rw [NamedRef.rename_injective moved same_ref] at own_eq
    exact typeKey_eq_of_named? named own_eq
  · intro same
    have other := named?_of_typeKey_eq named plain same
    refine typeKey_eq_of_named? renamed ?_
    rw [TypeRef.named?_rename, other, Option.map_some]

theorem typeKey_rename_iff (left_plain : left.isPlain = true) (right_plain : right.isPlain = true) :
    typeKey (left.rename moved) = typeKey (right.rename moved) ↔ typeKey left = typeKey right := by
  cases left_named : left.named? with
  | some ref => exact typeKey_rename_iff_of_named moved left_named right_plain
  | none =>
      cases right_named : right.named? with
      | some ref =>
          rw [eq_comm, typeKey_rename_iff_of_named moved right_named left_plain, eq_comm]
      | none =>
          rw [typeKey_rename_of_unnamed moved left_named,
            typeKey_rename_of_unnamed moved right_named]

/-- The parts of the key of something that a search can enter can be read off. -/
def Legible : Callee → Prop
  | function _ name => ':' ∉ name.toList
  | method _ name receiver _ => ':' ∉ name.toList ∧ receiver.isPlain = true
  | value _ _ _ => False
  | literal _ _ _ => True

theorem Legible.rename {callee : Callee} (legible : callee.Legible) :
    (callee.rename moved).Legible := by
  cases callee with
  | method package name receiver shown =>
      exact ⟨legible.1, (receiver.isPlain_rename moved).trans legible.2⟩
  | _ => exact legible

theorem Legible.free (legible : callee.Legible) : ':' ∉ callee.name.toList := by
  cases callee with
  | function => exact legible
  | method => exact legible.1
  | value => exact legible.elim
  | literal => simp [name]

theorem key_eq_iff {left right : Callee} (left_legible : left.Legible)
    (right_legible : right.Legible) : left.key = right.key ↔ left.Coincide right :=
  key_eq_iff_coincide left_legible.free right_legible.free

theorem coincide_rename {left right : Callee} (left_legible : left.Legible)
    (right_legible : right.Legible) :
    (left.rename moved).Coincide (right.rename moved) ↔ left.Coincide right := by
  cases left <;> cases right <;> try exact Iff.rfl
  case function => exact and_congr_left' moved.package_injective.eq_iff
  case value => exact left_legible.elim
  case method =>
    exact and_congr moved.package_injective.eq_iff
      (and_congr_left' (typeKey_rename_iff moved left_legible.2 right_legible.2))
  case literal => exact and_congr_left' moved.file_injective.eq_iff

/-- Callees have one key exactly if they have one key under other numbers. -/
theorem key_rename_iff {left right : Callee} (left_legible : left.Legible)
    (right_legible : right.Legible) :
    (left.rename moved).key = (right.rename moved).key ↔ left.key = right.key := by
  rw [key_eq_iff (left_legible.rename moved) (right_legible.rename moved),
    coincide_rename moved left_legible right_legible, key_eq_iff left_legible right_legible]

/-- A variable has no declaration. -/
theorem not_isDeclared_of_value (value_eq : (match type with
      | .func | .funcOf _ | .unknown => some (value symbol.package symbol.name id)
      | _ => none) = some callee) : callee.isDeclared ≠ true := by
  split at value_eq <;> cases value_eq <;> exact Bool.false_ne_true

/-- A callee that can have a declaration is a function or a method. -/
theorem symbol_of_isDeclared {tables : Tables} (callee_eq : ofSymbol tables id symbol = some callee)
    (declared : callee.isDeclared = true) :
    (symbol.kind = .func ∧ callee = .function symbol.package symbol.name) ∨
      ∃ receiver, symbol.kind = .method receiver ∧
        callee = .method symbol.package symbol.name receiver (receiverName receiver) := by
  unfold ofSymbol at callee_eq
  split at callee_eq
  · rename_i kind
    exact .inl ⟨kind, (Option.some.inj callee_eq).symm⟩
  · rename_i receiver kind
    split at callee_eq
    · cases callee_eq
    · exact .inr ⟨receiver, kind, (Option.some.inj callee_eq).symm⟩
  · exact absurd declared (not_isDeclared_of_value callee_eq)
  · exact absurd declared (not_isDeclared_of_value callee_eq)
  all_goals cases callee_eq

end Callee

/-! ## Callees of programs -/

namespace Predeclared

theorem legible_all : ∀ symbol ∈ tables.symbols.toList, ':' ∉ symbol.name.toList ∧
    ∀ receiver, symbol.kind = .method receiver → receiver.isPlain = true := by
  have evaluated : tables.symbols.toList.all (fun symbol => !symbol.name.toList.contains ':' &&
      match symbol.kind with
      | .method receiver => receiver.isPlain
      | _ => true) = true := by
    decide +kernel
  intro symbol listed
  have own := List.all_eq_true.mp evaluated symbol listed
  rw [Bool.and_eq_true] at own
  refine ⟨by simpa using own.1, fun receiver kind => ?_⟩
  have plain := own.2
  rw [kind] at plain
  exact plain

/-- Predeclared entities have legible keys. -/
theorem legible {id : SymbolId} {entity : Entity} (known : tables.entity? id = some entity) :
    ':' ∉ entity.name.toList ∧
      ∀ receiver, entity.kind = .method receiver → receiver.isPlain = true := by
  obtain ⟨symbol, found, rfl⟩ := Option.map_eq_some_iff.mp known
  exact legible_all symbol (Array.mem_toList_iff.mpr (Array.mem_of_getElem? found))

end Predeclared

namespace Program

open Resolution

variable {program : Program} (unique : program.UniqueIds)
  (names : ∀ decl ∈ program.functions, ':' ∉ decl.name.name.toList)
include unique names

theorem legible_of_decl {decl : FuncDecl} (member : decl ∈ program.functions) {callee : Callee}
    (callee_eq : Callee.ofDecl? program.resolve decl = some callee) : callee.Legible := by
  obtain ⟨units, declared, final, run⟩ := exists_resolves unique
  rw [run.tables_eq] at callee_eq
  obtain ⟨id, recorded⟩ := Callee.exists_objectOf callee_eq
  obtain ⟨package, -, declares⟩ := run.declares unique member recorded
  rcases Callee.ofDecl?_of_declares declares with ⟨-, own⟩ | ⟨-, receiver, receiver_eq, own⟩
  · cases callee_eq.symm.trans own
    exact names decl member
  · cases callee_eq.symm.trans own
    exact ⟨names decl member, run.isPlain unique receiver_eq⟩

theorem legible_of_symbol {id : SymbolId} {callee : Callee}
    (callee_eq : Callee.ofSymbolId? program.resolve id = some callee)
    (is_declared : callee.isDeclared = true) : callee.Legible := by
  obtain ⟨units, declared, final, run⟩ := exists_resolves unique
  rw [run.tables_eq] at callee_eq
  obtain ⟨symbol, found, own_eq⟩ := Option.bind_eq_some_iff.mp callee_eq
  have known : final.tables.entity? id = some symbol.entity := by
    rw [Tables.entity?, found]
    rfl
  have own := Callee.symbol_of_isDeclared own_eq is_declared
  have callable : symbol.kind.isCallable = true := by
    rcases own with ⟨kind, -⟩ | ⟨receiver, kind, -⟩ <;> rw [kind] <;> rfl
  rcases (run.accounts unique).callable id symbol.entity known callable with
    predeclared | ⟨package, decl, listed, declares⟩
  · obtain ⟨name, plain⟩ := Predeclared.legible predeclared
    rcases own with ⟨-, rfl⟩ | ⟨receiver, kind, rfl⟩
    · exact name
    · exact ⟨name, plain receiver kind⟩
  · have source := Callee.ofDecl?_of_ofSymbolId? declares callee_eq
    refine legible_of_decl unique names (run.functions package decl listed) ?_
    rw [run.tables_eq, source]

/-- The callees of calls have legible keys, as far as they have declarations. -/
theorem legible_of_call {call : Call} {callee : Callee}
    (callee_eq : Callee.ofCall? program.resolve call = some callee)
    (is_declared : callee.isDeclared = true) : callee.Legible := by
  unfold Callee.ofCall? Callee.ofExpr? at callee_eq
  split at callee_eq
  · obtain ⟨id, -, callee_eq⟩ := Option.bind_eq_some_iff.mp callee_eq
    exact legible_of_symbol unique names callee_eq is_declared
  · obtain ⟨id, -, callee_eq⟩ := Option.bind_eq_some_iff.mp callee_eq
    exact legible_of_symbol unique names callee_eq is_declared
  · cases callee_eq
    cases is_declared
  · cases callee_eq

end Program

/-! ## Declarations -/

namespace ProgramIndex

/-- The declaration of a callee with the key. -/
def hasKey (tables : Tables) (key : String) (decl : FuncDecl) : Bool :=
  (Callee.ofDecl? tables decl).any fun callee => callee.key == key

/-- A declaration enters the table unless an earlier one has its key. -/
theorem getElem?_foldl_declarations (tables : Tables) (key : String) (functions : List FuncDecl)
    (table : Std.TreeMap String FuncDecl) :
    (functions.foldl (fun table decl =>
      match Callee.ofDecl? tables decl with
      | some callee => table.insertIfNew callee.key decl
      | none => table) table)[key]? = table[key]?.or (functions.find? (hasKey tables key)) := by
  induction functions generalizing table with
  | nil => simp
  | cons decl functions ih =>
      rw [List.foldl_cons, ih, List.find?_cons]
      cases own : Callee.ofDecl? tables decl with
      | none => simp [hasKey, own]
      | some callee =>
          by_cases same : callee.key = key
          · subst same
            simp only [hasKey, own, Option.any_some, beq_self_eq_true,
              Std.TreeMap.getElem?_insertIfNew]
            cases found : table[callee.key]? with
            | none =>
                have missing : ¬callee.key ∈ table := by
                  rw [Std.TreeMap.mem_iff_isSome_getElem?, found]
                  simp
                simp [missing]
            | some earlier =>
                have present : callee.key ∈ table := by
                  rw [Std.TreeMap.mem_iff_isSome_getElem?, found]
                  rfl
                simp [present]
          · have other : hasKey tables key decl = false := by simp [hasKey, own, same]
            simp [other, same, Std.TreeMap.getElem?_insertIfNew]

/-- A key leads to the first declaration that has it. -/
theorem declarationTable_eq_find? (program : Program) (tables : Tables) (key : String) :
    (declarationTable program tables)[key]? = program.functions.find? (hasKey tables key) :=
  (getElem?_foldl_declarations tables key program.functions ∅).trans (by simp)

end ProgramIndex

end Relock
