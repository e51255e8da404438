import Relock.Lock.Search.Reach
import Relock.Proofs.Callee.Key
import Relock.Proofs.Program.Parts
import Relock.Proofs.Reading.Numbering
import Relock.Proofs.Resolution.Functions
import Relock.Proofs.Sample

/-!
# The declaration that a call enters

A call of a function or method refers to an entity, and the search for the body looks for a
declaration by the key of the callee. The two agree: what is found is the declaration of that very
entity, if it has one.
-/

namespace Relock

namespace ProgramIndex

/-- Every declaration with a callee leaves some declaration under the key of that callee. -/
theorem isSome_declarationTable {program : Program} {tables : Tables} {decl : FuncDecl}
    {callee : Callee} (member : decl ∈ program.functions)
    (callee_eq : Callee.ofDecl? tables decl = some callee) :
    ((declarationTable program tables)[callee.key]?).isSome = true := by
  obtain ⟨earlier, later, functions_eq⟩ := List.append_of_mem member
  rw [← Std.TreeMap.mem_iff_isSome_getElem?, declarationTable, functions_eq, List.foldl_append,
    List.foldl_cons]
  -- The key is there once the declaration is met, and stays there.
  refine List.foldlRecOn (motive := fun table : Std.TreeMap String FuncDecl => callee.key ∈ table)
    later _ ?_ ?_
  · simp [callee_eq]
  · intro table present other _
    cases Callee.ofDecl? tables other with
    | none => exact present
    | some added => exact Std.TreeMap.mem_insertIfNew.mpr (.inr present)

end ProgramIndex

/-- Some declaration is found for the callee of every declaration. -/
theorem Subject.isSome_declaration? (subject : Subject) {decl : FuncDecl} {callee : Callee}
    (is_declared : callee.isDeclared = true) (member : decl ∈ subject.program.functions)
    (callee_eq : Callee.ofDecl? subject.tables decl = some callee) :
    (subject.declaration? callee).isSome = true := by
  rw [declaration?, if_pos is_declared, subject.index_eq]
  exact ProgramIndex.isSome_declarationTable member callee_eq

namespace Callee

variable {callee : Callee}

/-- The entity that an expression refers to when it is called. -/
def symbol? (tables : Tables) (expr : Expr) : Option SymbolId :=
  match expr.unparen with
  | .ident ident => tables.objectOf ident
  | .selector id _ _ _ => tables.selection id
  | _ => none

theorem ofExpr?_of_symbol? {tables : Tables} {expr : Expr} {id : SymbolId}
    (through : symbol? tables expr = some id) : ofExpr? tables expr = ofSymbolId? tables id := by
  rw [symbol?] at through
  rw [ofExpr?]
  generalize expr.unparen = called at through ⊢
  cases called with
  | ident ident => simp only [through, Option.bind_some]
  | selector node base member span => simp only [through, Option.bind_some]
  | call | literal | paren | unary | composite | other => cases through

theorem isDeclared_of_isCallable {tables : Tables} {id : SymbolId} {symbol : Symbol}
    (callable : symbol.kind.isCallable = true)
    (callee_eq : ofSymbol tables id symbol = some callee) :
    callee.isDeclared = true ∧ callee.package? = some symbol.package := by
  rw [ofSymbol] at callee_eq
  split at callee_eq
  · cases callee_eq
    exact ⟨rfl, rfl⟩
  · split at callee_eq
    · cases callee_eq
    · cases callee_eq
      exact ⟨rfl, rfl⟩
  all_goals simp_all [SymbolKind.isCallable]

variable {tables : Tables} {package : PackageId} {decl : FuncDecl} {id : SymbolId}

/-- The declaration of an entity has the callee that the entity is. -/
theorem ofDecl?_of_ofSymbolId? (declares : tables.Declares package decl id)
    (callee_eq : ofSymbolId? tables id = some callee) : ofDecl? tables decl = some callee := by
  obtain ⟨recorded, kind, kind_eq, known⟩ := declares
  obtain ⟨symbol, found, same⟩ := Option.map_eq_some_iff.mp known
  have name : symbol.name = decl.name.name := congrArg Entity.name same
  have symbol_kind : symbol.kind = kind := congrArg Entity.kind same
  rw [ofSymbolId?, found, Option.bind_some, ofSymbol] at callee_eq
  rw [ofDecl?, recorded, Option.bind_some, found]
  simp only
  rw [Tables.declaredKind?] at kind_eq
  split at kind_eq
  · obtain ⟨receiver, receiver_eq, rfl⟩ := Option.map_eq_some_iff.mp kind_eq
    simp only [symbol_kind] at callee_eq ⊢
    split at callee_eq
    · cases callee_eq
    · rw [receiver_eq, Option.map_some, ← callee_eq, name]
  · cases kind_eq
    simp only [symbol_kind] at callee_eq ⊢
    rw [← callee_eq, name]

theorem exists_objectOf (callee_eq : ofDecl? tables decl = some callee) :
    ∃ id, tables.objectOf decl.name = some id := by
  cases recorded : tables.objectOf decl.name with
  | none => simp [ofDecl?, recorded] at callee_eq
  | some id => exact ⟨id, rfl⟩

/-- The callee of a declaration is the function or the method that it declares. -/
theorem ofDecl?_of_declares (declares : tables.Declares package decl id) :
    decl.isMethod = false ∧ ofDecl? tables decl = some (.function package decl.name.name) ∨
      decl.isMethod = true ∧ ∃ receiver, tables.receiverType? decl = some receiver ∧
        ofDecl? tables decl =
          some (.method package decl.name.name receiver (receiverName receiver)) := by
  obtain ⟨recorded, kind, kind_eq, known⟩ := declares
  obtain ⟨symbol, found, same⟩ := Option.map_eq_some_iff.mp known
  have symbol_package : symbol.package = package := congrArg Entity.package same
  have symbol_kind : symbol.kind = kind := congrArg Entity.kind same
  rw [ofDecl?, recorded, Option.bind_some, found]
  simp only
  rw [Tables.declaredKind?] at kind_eq
  split at kind_eq
  · rename_i method
    obtain ⟨receiver, receiver_eq, rfl⟩ := Option.map_eq_some_iff.mp kind_eq
    refine .inr ⟨method, receiver, receiver_eq, ?_⟩
    simp only [symbol_kind, receiver_eq, Option.map_some, symbol_package]
  · rename_i plain
    cases kind_eq
    refine .inl ⟨by simpa using plain, ?_⟩
    simp only [symbol_kind, symbol_package]

theorem package?_of_declares (declares : tables.Declares package decl id)
    (callee_eq : ofDecl? tables decl = some callee) :
    callee.isDeclared = true ∧ callee.package? = some package := by
  rcases ofDecl?_of_declares declares with ⟨-, own⟩ | ⟨-, receiver, -, own⟩
  all_goals
    rw [own] at callee_eq
    cases callee_eq
    exact ⟨rfl, rfl⟩

/-! ## Receivers -/

theorem head_of_types : ∀ name ∈ Predeclared.types,
    (name.toList.head?.all fun char => !char.isDigit) = true := by
  decide +kernel

/-- A receiver type with the key of a named type is that type. -/
theorem named?_of_typeKey_eq {receiver type : TypeRef} {ref : NamedRef}
    (named : receiver.named? = some ref) (plain : type.isPlain = true)
    (same : typeKey receiver = typeKey type) : type.named? = some ref := by
  have base_eq := TypeRef.base_of_named? named
  obtain ⟨digit, rest, text, is_digit⟩ := exists_digit_of_typeKey base_eq
  rw [same] at text
  -- No other type has a key that begins with a digit.
  have other (head : ((typeKey type).toList.head?.all fun char => !char.isDigit) = true) :
      False := by
    simp [text, is_digit] at head
  cases type_base : type.base with
  | named base =>
      rw [typeKey_named_inj base_eq type_base same, TypeRef.named?, type_base]
  | basic name =>
      rw [TypeRef.isPlain, type_base] at plain
      refine (other ?_).elim
      rw [typeKey, type_base]
      exact head_of_types name (List.contains_iff_mem.mp plain)
  | func | funcOf | pointer | unknown =>
      refine (other ?_).elim
      simp [typeKey, type_base]

end Callee

namespace Program

/-- The named type whose method a declaration is. -/
def base? (program : Program) (decl : FuncDecl) : Option NamedRef :=
  (program.resolve.receiverType? decl).bind TypeRef.named?

/-- No package declares two functions of one name, or two methods of one name for one type. -/
structure DeclaresOnce (program : Program) : Prop where
  function : ∀ left ∈ program.files, ∀ right ∈ program.files,
    (left.dir, left.package) = (right.dir, right.package) →
      ∀ first ∈ left.functions, ∀ second ∈ right.functions,
        first.isMethod = false → second.isMethod = false →
          first.name.name = second.name.name → first.id = second.id
  method : ∀ left ∈ program.files, ∀ right ∈ program.files,
    (left.dir, left.package) = (right.dir, right.package) →
      ∀ first ∈ left.functions, ∀ second ∈ right.functions,
        (program.base? first).isSome = true → program.base? first = program.base? second →
          first.name.name = second.name.name → first.id = second.id

end Program

namespace Resolution

variable {program : Program} {units : List (FileScope × File)} {declared : Tables}
  {final : Resolving} {package other : PackageId} {decl found : FuncDecl}

variable {id : SymbolId}

/-- A declaration stands in a file of its package, which is not `sync`. -/
theorem Resolves.exists_file (run : Resolves program units declared final)
    (member : (package, decl) ∈ declaredIn units) :
    Predeclared.sync < package ∧ ∃ file ∈ program.files, decl ∈ file.functions ∧
      final.tables.label? package = some (file.dir, file.package) := by
  obtain ⟨unit, unit_mem, decl_mem, rfl⟩ := mem_declaredIn.mp member
  obtain ⟨after, label⟩ := (run.sound.sees unit unit_mem).owns
  refine ⟨after, unit.2, ?_, decl_mem, label⟩
  rw [← run.files]
  exact List.mem_map_of_mem unit_mem

theorem Resolves.exists_package (run : Resolves program units declared final)
    (member : decl ∈ program.functions) : ∃ package, (package, decl) ∈ declaredIn units := by
  obtain ⟨file, file_mem, decl_mem⟩ := List.mem_flatMap.mp member
  rw [← run.files] at file_mem
  obtain ⟨unit, unit_mem, rfl⟩ := List.mem_map.mp file_mem
  exact ⟨unit.1.package, mem_declaredIn.mpr ⟨unit, unit_mem, decl_mem, rfl⟩⟩

/-- What is recorded for the name of a declaration is what it declares. -/
theorem Resolves.declares (unique : program.UniqueIds) (run : Resolves program units declared final)
    (member : decl ∈ program.functions) (recorded : final.tables.objectOf decl.name = some id) :
    ∃ package, (package, decl) ∈ declaredIn units ∧ final.tables.Declares package decl id := by
  obtain ⟨package, listed⟩ := run.exists_package member
  exact (run.accounts unique).recorded package decl id listed recorded

/-- What a call of the program refers to can be referred to. -/
theorem Resolves.reachable (unique : program.UniqueIds)
    (run : Resolves program units declared final) {call : Call} (site : .call call ∈ program.nodes)
    (through : Callee.symbol? final.tables call.callee = some id) : final.tables.Reachable id := by
  have marked : call.callee.unparen.marks ⊆ program.marks :=
    call.callee.marks_unparen ▸ Program.marks_of_call site
  rw [Callee.symbol?] at through
  generalize call.callee.unparen = called at through marked
  cases called with
  | ident ident =>
      rcases run.sound.refers.use ident.id id through with reachable | ⟨package, decl, member, same⟩
      · exact reachable
      · have named : ident.mark ∈ program.marks := marked (by simp [Expr.marks])
        exact absurd same.symm (unique.name_apart (run.functions package decl member) _ named rfl)
  | selector node base member span => exact run.sound.refers.selection node id through
  | call | literal | paren | unary | composite | other => cases through

/-- The receiver of a method that can be referred to is a named type. -/
theorem named_of_reachable {tables : Tables} (reachable : tables.Reachable id)
    (declares : tables.Declares package decl id) (method : decl.isMethod = true)
    {receiver : TypeRef} (receiver_eq : tables.receiverType? decl = some receiver) :
    ∃ ref, receiver.named? = some ref := by
  obtain ⟨-, kind, kind_eq, known⟩ := declares
  obtain ⟨entity, entity_eq, named⟩ := reachable
  rw [Tables.declaredKind?, if_pos method, receiver_eq, Option.map_some] at kind_eq
  cases kind_eq
  rw [known] at entity_eq
  cases entity_eq
  exact named receiver rfl

variable (unique : program.UniqueIds)
include unique

/-- Declarations with callees of one key are the same, if one of them can be referred to. -/
theorem Resolves.eq_of_key_eq (names : ∀ decl ∈ program.functions, ':' ∉ decl.name.name.toList)
    (once : program.DeclaresOnce) (run : Resolves program units declared final)
    {found_id : SymbolId} (member : (package, decl) ∈ declaredIn units)
    (declares : final.tables.Declares package decl id) (reachable : final.tables.Reachable id)
    (found_mem : (other, found) ∈ declaredIn units)
    (found_declares : final.tables.Declares other found found_id)
    (same : (Callee.ofDecl? final.tables decl).map Callee.key =
      (Callee.ofDecl? final.tables found).map Callee.key) : decl = found := by
  have decl_mem := run.functions package decl member
  have found_listed := run.functions other found found_mem
  have free := names decl decl_mem
  have found_free := names found found_listed
  obtain ⟨-, file, file_mem, inside, label⟩ := run.exists_file member
  obtain ⟨-, found_file, found_file_mem, found_inside, found_label⟩ := run.exists_file found_mem
  -- Files of one package have its directory and its name in common.
  have labels (packages : package = other) :
      (file.dir, file.package) = (found_file.dir, found_file.package) := by
    rw [packages, found_label] at label
    exact (Option.some.inj label).symm
  rcases Callee.ofDecl?_of_declares declares with
    ⟨plain, callee_eq⟩ | ⟨method, receiver, receiver_eq, callee_eq⟩ <;>
  rcases Callee.ofDecl?_of_declares found_declares with
    ⟨found_plain, found_eq⟩ | ⟨found_method, found_receiver, found_receiver_eq, found_eq⟩ <;>
  rw [callee_eq, found_eq, Option.map_some, Option.map_some, Option.some.injEq] at same
  · obtain ⟨packages, name⟩ := Callee.key_function_inj same
    exact unique.declaration_eq decl_mem found_listed (once.function file file_mem found_file
      found_file_mem (labels packages) decl inside found found_inside plain found_plain name)
  · exact absurd same (Callee.key_function_ne_method free)
  · exact absurd same.symm (Callee.key_function_ne_method found_free)
  · obtain ⟨packages, types, name⟩ := Callee.key_method_inj free found_free same
    obtain ⟨ref, named⟩ := named_of_reachable reachable declares method receiver_eq
    have found_named :=
      Callee.named?_of_typeKey_eq named (run.isPlain unique found_receiver_eq) types
    have base : program.base? decl = some ref := by
      rw [Program.base?, run.tables_eq, receiver_eq, Option.bind_some, named]
    have found_base : program.base? found = some ref := by
      rw [Program.base?, run.tables_eq, found_receiver_eq, Option.bind_some, found_named]
    exact unique.declaration_eq decl_mem found_listed (once.method file file_mem found_file
      found_file_mem (labels packages) decl inside found found_inside (by simp [base])
      (base.trans found_base.symm) name)

/-- Only the declaration of an entity has a callee with the key of that entity. -/
theorem Resolves.objectOf_of_key_eq
    (names : ∀ decl ∈ program.functions, ':' ∉ decl.name.name.toList) (once : program.DeclaresOnce)
    (run : Resolves program units declared final) {symbol : Symbol} {own callee : Callee}
    (known : final.tables.symbol? id = some symbol) (callable : symbol.kind.isCallable = true)
    (reachable : final.tables.Reachable id)
    (callee_eq : Callee.ofSymbolId? final.tables id = some callee)
    (member : decl ∈ program.functions) (own_eq : Callee.ofDecl? final.tables decl = some own)
    (same : own.key = callee.key) : final.tables.objectOf decl.name = some id := by
  obtain ⟨own_id, recorded⟩ := Callee.exists_objectOf own_eq
  obtain ⟨owner, listed, declares⟩ := run.declares unique member recorded
  rcases (run.accounts unique).callable id symbol.entity
      (congrArg (Option.map Symbol.entity) known) callable with
    predeclared | ⟨package, source, source_mem, source_declares⟩
  · -- The predeclared methods belong to `sync`, where nothing is declared.
    rw [Callee.ofSymbolId?, known, Option.bind_some] at callee_eq
    obtain ⟨is_declared, package_eq⟩ := Callee.isDeclared_of_isCallable callable callee_eq
    obtain ⟨own_declared, own_package⟩ := Callee.package?_of_declares declares own_eq
    have packages := Callee.package?_eq_of_key_eq own_declared is_declared same
    rw [own_package, package_eq, Option.some.injEq] at packages
    have is_sync : symbol.package = Predeclared.sync :=
      Predeclared.package_of_isCallable predeclared callable
    have after := (run.exists_file listed).1
    rw [packages, is_sync] at after
    exact absurd after (Nat.lt_irrefl _)
  · have source_eq := Callee.ofDecl?_of_ofSymbolId? source_declares callee_eq
    have source_same : source = decl :=
      run.eq_of_key_eq unique names once source_mem source_declares reachable listed declares
        (by rw [source_eq, own_eq, Option.map_some, Option.map_some, same])
    exact source_same ▸ source_declares.1

/-- The entity of a declaration tells its name, its kind and its package. -/
theorem Resolves.symbol_of_recorded (run : Resolves program units declared final) {symbol : Symbol}
    (known : final.tables.symbol? id = some symbol) (member : decl ∈ program.functions)
    (recorded : final.tables.objectOf decl.name = some id) :
    Predeclared.sync < symbol.package ∧ decl.name.name = symbol.name ∧
      final.tables.declaredKind? decl = some symbol.kind ∧
        ∃ file ∈ program.files, decl ∈ file.functions ∧
          final.tables.label? symbol.package = some (file.dir, file.package) := by
  obtain ⟨package, listed, -, kind, kind_eq, entity_eq⟩ := run.declares unique member recorded
  rw [Tables.entity?, known, Option.map_some, Option.some.injEq] at entity_eq
  have name : symbol.name = decl.name.name := congrArg Entity.name entity_eq
  have symbol_kind : symbol.kind = kind := congrArg Entity.kind entity_eq
  have symbol_package : symbol.package = package := congrArg Entity.package entity_eq
  obtain ⟨after, place⟩ := run.exists_file listed
  rw [symbol_package, symbol_kind]
  exact ⟨after, name.symm, kind_eq, place⟩

end Resolution

namespace Subject

variable {program : Program}

open Resolution in
/-- The declaration that a call enters is the one of the entity that its callee refers to. -/
theorem declaration?_eq_some_iff (unique : program.UniqueIds)
    (names : ∀ decl ∈ program.functions, ':' ∉ decl.name.name.toList)
    (once : program.DeclaresOnce) (config : Config) {call : Call}
    (site : .call call ∈ program.nodes) {id : SymbolId} {symbol : Symbol} {callee : Callee}
    (through : Callee.symbol? program.resolve call.callee = some id)
    (known : program.resolve.symbol? id = some symbol) (callable : symbol.kind.isCallable = true)
    (resolved : (ofProgram program config).callee? call = some callee) (decl : FuncDecl) :
    (ofProgram program config).declaration? callee = some decl ↔
      decl ∈ program.functions ∧ program.resolve.objectOf decl.name = some id := by
  let find := (ofProgram program config).declaration? callee
  obtain ⟨units, declared, final, run⟩ := exists_resolves unique
  have tables_eq : (ofProgram program config).tables = final.tables := run.tables_eq
  rw [run.tables_eq] at through known ⊢
  have reachable := run.reachable unique site through
  have callee_eq : Callee.ofSymbolId? final.tables id = some callee := by
    rw [← Callee.ofExpr?_of_symbol? through, ← tables_eq]
    exact resolved
  -- What is found has the key of the callee, so it is the declaration of the entity.
  have sound (decl : FuncDecl) (found : find = some decl) :
      decl ∈ program.functions ∧ final.tables.objectOf decl.name = some id := by
    obtain ⟨member, key_eq⟩ := declaration?_spec found
    obtain ⟨own, own_eq, same⟩ := Option.map_eq_some_iff.mp key_eq
    rw [tables_eq] at own_eq
    exact ⟨member, run.objectOf_of_key_eq unique names once known callable reachable callee_eq
      member own_eq same⟩
  -- The declaration of the entity has the key of the callee, and no other one has it.
  have complete (decl : FuncDecl) (member : decl ∈ program.functions)
      (recorded : final.tables.objectOf decl.name = some id) : find = some decl := by
    obtain ⟨package, listed, declares⟩ := run.declares unique member recorded
    have own_eq := Callee.ofDecl?_of_ofSymbolId? declares callee_eq
    have is_declared := (Callee.package?_of_declares declares own_eq).1
    have is_found : find.isSome = true :=
      isSome_declaration? _ is_declared member (by rw [tables_eq, own_eq])
    obtain ⟨other, found⟩ := Option.isSome_iff_exists.mp is_found
    obtain ⟨other_mem, other_recorded⟩ := sound other found
    obtain ⟨owner, other_listed, other_declares⟩ := run.declares unique other_mem other_recorded
    have other_eq := Callee.ofDecl?_of_ofSymbolId? other_declares callee_eq
    have same : decl = other :=
      run.eq_of_key_eq unique names once listed declares reachable other_listed other_declares
        (by rw [own_eq, other_eq])
    rw [same, found]
  exact ⟨sound decl, fun both => complete decl both.1 both.2⟩

open Resolution in
/-- A call of a function or method enters the declaration of that function or method, and none if it
has no declaration. -/
theorem declaration?_iff_recorded (unique : program.UniqueIds)
    (names : ∀ decl ∈ program.functions, ':' ∉ decl.name.name.toList)
    (once : program.DeclaresOnce) (config : Config) {call : Call}
    (site : .call call ∈ program.nodes) {id : SymbolId} {symbol : Symbol} {callee : Callee}
    (through : Callee.symbol? program.resolve call.callee = some id)
    (known : program.resolve.symbol? id = some symbol) (callable : symbol.kind.isCallable = true)
    (resolved : (ofProgram program config).callee? call = some callee) :
    let find := (ofProgram program config).declaration? callee
    (∀ decl, find = some decl ↔
      decl ∈ program.functions ∧ program.resolve.objectOf decl.name = some id) ∧
    (∀ decl, find = some decl →
      decl.name.name = symbol.name ∧ program.resolve.declaredKind? decl = some symbol.kind ∧
        ∃ file ∈ program.files, decl ∈ file.functions ∧
          program.resolve.label? symbol.package = some (file.dir, file.package)) ∧
    (symbol.package = Predeclared.sync → find = none) := by
  intro find
  have found_iff :=
    declaration?_eq_some_iff unique names once config site through known callable resolved
  obtain ⟨units, declared, final, run⟩ := exists_resolves unique
  rw [run.tables_eq] at found_iff known ⊢
  have tells (decl : FuncDecl) (found : find = some decl) :=
    run.symbol_of_recorded unique known ((found_iff decl).mp found).1 ((found_iff decl).mp found).2
  refine ⟨found_iff, fun decl found => (tells decl found).2, fun is_sync => ?_⟩
  cases found : find with
  | none => rfl
  | some decl => exact absurd is_sync (Nat.ne_of_gt (tells decl found).1)

/-- A call in a program that is read from trees enters the declaration of the entity that its callee
refers to. No number is used twice there. -/
theorem declaration?_ofTrees {trees : List (String × Tree)}
    (names : ∀ decl ∈ (Program.ofTrees trees).functions, ':' ∉ decl.name.name.toList)
    (once : (Program.ofTrees trees).DeclaresOnce) (config : Config) {call : Call}
    (site : .call call ∈ (Program.ofTrees trees).nodes) {id : SymbolId} {symbol : Symbol}
    {callee : Callee}
    (through : Callee.symbol? (Program.ofTrees trees).resolve call.callee = some id)
    (known : (Program.ofTrees trees).resolve.symbol? id = some symbol)
    (callable : symbol.kind.isCallable = true)
    (resolved : (ofProgram (.ofTrees trees) config).callee? call = some callee)
    (decl : FuncDecl) :
    (ofProgram (.ofTrees trees) config).declaration? callee = some decl ↔
      decl ∈ (Program.ofTrees trees).functions ∧
        (Program.ofTrees trees).resolve.objectOf decl.name = some id :=
  declaration?_eq_some_iff (Program.nodup_ids_ofTrees trees) names once config site through known
    callable resolved decl

/-- A declaration of `Run`, as a function or as a method of a type. -/
def runDecl (index : Nat) (holder : Option String) : FuncDecl :=
  ⟨⟨0, index⟩, Sample.name (index + 1) "Run",
    holder.map fun type => ⟨some (Sample.name (index + 2) "r"), .pointer (.name type)⟩, [], none,
    some ⟨[], .zero⟩, .zero⟩

/-- A function `Run` and two types with a method `Run`. A function calls the one of `S` and acquires
the lock of an `S`. -/
def namesakes : Program :=
  ⟨[⟨0, "p.go", "p", ".", [⟨none, "sync"⟩],
    [.type ⟨Sample.name 0 "S", .struct [⟨[Sample.name 1 "mu"], .qualified "sync" "RWMutex"⟩],
      .zero⟩,
    .type ⟨Sample.name 2 "T", .struct [], .zero⟩,
    .func (runDecl 10 none), .func (runDecl 20 (some "T")), .func (runDecl 30 (some "S")),
    .func (Sample.function 40 "F" ["s"]
      [Sample.memberCall 50 "s" "Run", Sample.lockCall 60 "s" "RLock"])]⟩]⟩

/-- The call of `Run` enters the method of `S`, and the acquisition enters nothing. -/
theorem namesakes_entered :
    namesakes.UniqueIds ∧ (∀ decl ∈ namesakes.functions, ':' ∉ decl.name.name.toList) ∧
    namesakes.DeclaresOnce ∧
    (∃ callee, (ofProgram namesakes {}).callee? (Sample.memberCall 50 "s" "Run") = some callee ∧
      (ofProgram namesakes {}).declaration? callee = some (runDecl 30 (some "S"))) ∧
    ∃ callee, (ofProgram namesakes {}).callee? (Sample.lockCall 60 "s" "RLock") = some callee ∧
      (ofProgram namesakes {}).declaration? callee = none := by
  have unique : namesakes.UniqueIds := by decide +kernel
  have names : ∀ decl ∈ namesakes.functions, ':' ∉ decl.name.name.toList := by decide +kernel
  have once : namesakes.DeclaresOnce := ⟨by decide +kernel, by decide +kernel⟩
  -- What a call refers to and its callee, evaluated.
  have refers (call : Call)
      (evaluated : ((Callee.symbol? namesakes.resolve call.callee).any fun id =>
        (namesakes.resolve.symbol? id).any fun symbol => symbol.kind.isCallable &&
          ((ofProgram namesakes {}).callee? call).isSome) = true) :
      ∃ id symbol callee, Callee.symbol? namesakes.resolve call.callee = some id ∧
        namesakes.resolve.symbol? id = some symbol ∧ symbol.kind.isCallable = true ∧
          (ofProgram namesakes {}).callee? call = some callee := by
    obtain ⟨id, through, evaluated⟩ := (Option.any_eq_true _ _).mp evaluated
    obtain ⟨symbol, known, evaluated⟩ := (Option.any_eq_true _ _).mp evaluated
    obtain ⟨callable, is_resolved⟩ := Bool.and_eq_true_iff.mp evaluated
    obtain ⟨callee, resolved⟩ := Option.isSome_iff_exists.mp is_resolved
    exact ⟨id, symbol, callee, through, known, callable, resolved⟩
  refine ⟨unique, names, once, ?_, ?_⟩
  · obtain ⟨id, symbol, callee, through, known, callable, resolved⟩ :=
      refers (Sample.memberCall 50 "s" "Run") (by decide +kernel)
    have site : .call (Sample.memberCall 50 "s" "Run") ∈ namesakes.nodes :=
      List.mem_of_getElem? (i := 4) rfl
    have member : runDecl 30 (some "S") ∈ namesakes.functions := List.mem_of_getElem? (i := 2) rfl
    have recorded : namesakes.resolve.objectOf (runDecl 30 (some "S")).name =
        Callee.symbol? namesakes.resolve (Sample.memberCall 50 "s" "Run").callee := by
      decide +kernel
    exact ⟨callee, resolved, ((declaration?_iff_recorded unique names once {} site through known
      callable resolved).1 _).mpr ⟨member, recorded.trans through⟩⟩
  · obtain ⟨id, symbol, callee, through, known, callable, resolved⟩ :=
      refers (Sample.lockCall 60 "s" "RLock") (by decide +kernel)
    have site : .call (Sample.lockCall 60 "s" "RLock") ∈ namesakes.nodes :=
      List.mem_of_getElem? (i := 5) rfl
    have in_sync : ((Callee.symbol? namesakes.resolve (Sample.lockCall 60 "s" "RLock").callee).bind
        namesakes.resolve.symbol?).map Symbol.package = some Predeclared.sync := by
      decide +kernel
    rw [through, Option.bind_some, known, Option.map_some, Option.some.injEq] at in_sync
    exact ⟨callee, resolved, (declaration?_iff_recorded unique names once {} site through known
      callable resolved).2.2 in_sync⟩

end Subject

end Relock
