import Relock.Proofs.Renaming.Lockstep

/-!
# Declarations in lockstep

In matching tables the same declarations add the same entities, up to the numbers. Names are
declared without a look at other names; what types are made of and signatures are read off the
names of all packages.
-/

namespace Relock

variable {moved : Renaming} {view : View}

namespace Tables

variable {left right : Tables}

variable (same : left.Matches moved view right)
include same

theorem Matches.setNamed (ref : NamedRef) {type other : NamedType}
    (renamed : type.Renamed moved other) :
    (left.setNamed ref type).Matches moved view (right.setNamed (ref.rename moved) other) := by
  have injective := NamedRef.rename_injective moved
  exact
  { same with
    named := fun another seen => by
      have known := same.named another seen
      simp only [Tables.setNamed, Std.TreeMap.contains_insert]
      rw [known]
      simp only [beq_eq_decide, Std.LawfulEqCmp.compare_eq_iff_eq, injective.eq_iff]
    underlying := fun another found_type found_other seen found other_found => by
      simp only [Tables.setNamed, Std.TreeMap.getElem?_insert, Std.LawfulEqCmp.compare_eq_iff_eq,
        injective.eq_iff] at found other_found
      split at found
      · rename_i own
        rw [if_pos own] at other_found
        cases found
        cases other_found
        exact renamed.underlying
      · rename_i apart
        rw [if_neg apart] at other_found
        exact same.underlying _ _ _ seen found other_found
    methods := fun another found_type found_other name seen found other_found => by
      simp only [Tables.setNamed, Std.TreeMap.getElem?_insert, Std.LawfulEqCmp.compare_eq_iff_eq,
        injective.eq_iff] at found other_found
      split at found
      · rename_i own
        rw [if_pos own] at other_found
        cases found
        cases other_found
        exact renamed.methods name
      · rename_i apart
        rw [if_neg apart] at other_found
        exact same.methods _ _ _ name seen found other_found }

theorem Matches.setUnderlying (ref : NamedRef) {underlying other : Underlying}
    (renamed : underlying.Renamed moved other) :
    (left.setUnderlying ref underlying).Matches moved view
      (right.setUnderlying (ref.rename moved) other) :=
  same.modifyNamed ref (fun _ _ _ => renamed) fun _ _ _ => id

theorem Matches.addMethod (ref : NamedRef) (name : String) (method : SymbolId) :
    (left.addMethod ref name method).Matches moved view
      (right.addMethod (ref.rename moved) name (moved.symbol method)) := by
  refine same.modifyNamed ref (fun _ _ => id) fun type other text alike => ?_
  rw [Std.TreeMap.getElem?_insert, Std.TreeMap.getElem?_insert, alike]
  split <;> rfl

/-- Tables that match, with packages of the given numbers. -/
structure MatchesWithin (moved : Renaming) (view : View) (count total : Nat)
    (left right : Tables) : Prop where
  same : left.Matches moved view right
  left_size : left.packages.size = count
  right_size : right.packages.size = total

end Tables

namespace Resolution

variable {count total : Nat}

/-! ## Names -/

theorem declareMember_alongside {symbol : Symbol} (own : symbol.package < count)
    (other_own : moved.package symbol.package < total) (ident : Ident) :
    Alongside (Tables.MatchesWithin moved view count total) (declareMember ident symbol)
      (declareMember (ident.renumber moved.file) (symbol.rename moved)) := by
  intro left right within
  have bound := (within.same.addSymbol symbol).bind (by rwa [← within.left_size] at own)
    (by rwa [← within.right_size] at other_own) symbol.name left.symbols.size
  have recorded := bound.recordUse ident.id left.symbols.size
  rw [within.same.symbol_size] at recorded
  exact ⟨⟨recorded, Array.size_modify.trans within.left_size,
    Array.size_modify.trans within.right_size⟩, trivial⟩

theorem declareNames_alongside {package : PackageId} (own : package < count)
    (other_own : moved.package package < total) (decl : Decl) :
    Alongside (Tables.MatchesWithin moved view count total) (declareNames package decl)
      (declareNames (moved.package package) (decl.renumber moved.file)) := by
  cases decl with
  | type spec =>
      rw [Decl.renumber, declareNames, declareNames]
      by_cases empty : spec.name.name.isEmpty = true
      · have also : (spec.renumber moved.file).name.name.isEmpty = true := empty
        rw [if_pos empty, if_pos also]
        exact .pure trivial
      · have also : ¬(spec.renumber moved.file).name.name.isEmpty = true := empty
        rw [if_neg empty, if_neg also]
        let symbol : Symbol :=
          ⟨spec.name.name, .typeName, package, .named ⟨package, spec.name.name⟩, none⟩
        have member : Alongside (Tables.MatchesWithin moved view count total)
            (declareMember spec.name symbol)
            (declareMember (spec.name.renumber moved.file) (symbol.rename moved)) :=
          declareMember_alongside own other_own spec.name
        refine member.bind fun _ _ _ => .modify fun left right within => ?_
        refine ⟨within.same.setNamed ⟨package, spec.name.name⟩ ?_, within.left_size,
          within.right_size⟩
        exact ⟨rfl, Scope.renamed_empty⟩
  | func decl =>
      simp only [Decl.renumber, declareNames, FuncDecl.isMethod_renumber]
      cases decl.isMethod with
      | true => exact .pure trivial
      | false =>
          let symbol : Symbol := ⟨decl.name.name, .func, package, .func, none⟩
          have member : Alongside (Tables.MatchesWithin moved view count total)
              (declareMember decl.name symbol)
              (declareMember (decl.name.renumber moved.file) (symbol.rename moved)) :=
            declareMember_alongside own other_own decl.name
          exact member
  | var spec =>
      simp only [Decl.renumber, ValueSpec.renumber, declareNames]
      refine .forM_map fun ident _ => ?_
      rw [Ident.isBlank_renumber]
      cases ident.isBlank with
      | true => exact .pure trivial
      | false =>
          let symbol : Symbol := ⟨ident.name, .var .package, package, .unknown, some spec.id⟩
          have member : Alongside (Tables.MatchesWithin moved view count total)
              (declareMember ident symbol)
              (declareMember (ident.renumber moved.file) (symbol.rename moved)) :=
            declareMember_alongside own other_own ident
          exact member

/-! ## Types -/

theorem recordUse_alongside (node : NodeId) (id : SymbolId) :
    Alongside (Tables.Matches moved view) (modify fun tables => tables.recordUse node id)
      (modify fun tables =>
        tables.recordUse (node.renumber moved.file) (moved.symbol id)) :=
  .modify fun _ _ same => same.recordUse node id

theorem newSymbol_alongside (symbol : Symbol) :
    Alongside (Tables.Matches moved view) (newSymbol symbol) (newSymbol (symbol.rename moved))
      fun id other => other = moved.symbol id :=
  .modifyGet fun _ _ same => ⟨same.addSymbol symbol, same.symbol_size.symm⟩

theorem newField_alongside (package : PackageId) (name : String) (type : TypeRef)
    (embedded : Bool) :
    Alongside (Tables.Matches moved view) (newField package name type embedded)
      (newField (moved.package package) name (type.rename moved) embedded)
      fun field other => other = field.rename moved := by
  refine (newSymbol_alongside { name, kind := .field, package, type }).bind fun id other same => ?_
  exact .pure (by rw [same]; rfl)

section Scope

variable {scope other : FileScope} (scopes : scope.Matches moved other)
  (members : ∀ package name, view.member package name)
include scopes members

theorem declareFields_alongside (decl : FieldDecl) :
    Alongside (Tables.Matches moved view) (declareFields scope decl)
      (declareFields other (decl.renumber moved.file))
      fun fields others => others = fields.map (FieldInfo.rename moved) := by
  refine .get_bind fun before after same => ?_
  have type : resolveType other after (decl.renumber moved.file).type =
      (resolveType scope before decl.type).rename moved :=
    resolveType_rename same members scopes decl.type
  have embedded : (decl.renumber moved.file).isEmbedded = decl.isEmbedded := by
    simp [FieldDecl.isEmbedded, FieldDecl.renumber]
  dsimp only
  rw [type, embedded, scopes.package]
  split
  · have same_name : embeddedName? (decl.renumber moved.file).type = embeddedName? decl.type := rfl
    rw [same_name]
    cases embeddedName? decl.type with
    | none => exact .pure rfl
    | some name =>
        refine (newField_alongside scope.package name _ true).bind fun field another alike => ?_
        exact .pure (by rw [alike]; rfl)
  · refine .mapM_map fun ident _ => ?_
    refine (newField_alongside scope.package ident.name _ false).bind fun field another alike => ?_
    subst alike
    exact (recordUse_alongside ident.id field.symbol).bind fun _ _ _ => .pure rfl

omit scopes members in
theorem declareInterface_alongside (ref : NamedRef) (names : List Ident) :
    Alongside (Tables.Matches moved view) (declareInterface ref names)
      (declareInterface (ref.rename moved) (names.map (Ident.renumber moved.file)))
      (Scope.Renamed moved) := by
  refine .foldlM_map Scope.renamed_empty fun ident _ methods others renamed => ?_
  refine (newSymbol_alongside ⟨ident.name, .interfaceMethod (.named ref), ref.package, .func,
    none⟩).bind fun id another alike => ?_
  subst alike
  exact (recordUse_alongside ident.id id).bind fun _ _ _ => .pure (renamed.insert ident.name id)

theorem declareUnderlying_alongside (ref : NamedRef) (body : TypeBody) :
    Alongside (Tables.Matches moved view) (declareUnderlying scope ref body)
      (declareUnderlying other (ref.rename moved) (body.renumber moved.file))
      (Underlying.Renamed moved) := by
  cases body with
  | struct fields =>
      refine (Alongside.mapM_map fun field _ =>
        declareFields_alongside scopes members field).bind fun groups others alike => .pure ?_
      subst alike
      exact List.map_flatten.symm
  | interface names =>
      exact (declareInterface_alongside ref names).bind fun _ _ renamed => .pure renamed
  | other type =>
      refine .get_bind fun before after same => .pure ?_
      exact resolveType_rename same members scopes type

theorem completeType_alongside (spec : TypeSpec) :
    Alongside (Tables.Matches moved view) (completeType scope spec)
      (completeType other (spec.renumber moved.file)) := by
  have ref_eq : (⟨other.package, (spec.renumber moved.file).name.name⟩ : NamedRef) =
      NamedRef.rename moved ⟨scope.package, spec.name.name⟩ := by
    rw [scopes.package]
    rfl
  unfold completeType
  dsimp only
  rw [ref_eq]
  refine (declareUnderlying_alongside scopes members _ spec.body).bind
    fun underlying another renamed => ?_
  exact .modify fun _ _ same => same.setUnderlying _ renamed

/-! ## Signatures -/

omit members in
theorem declareMethod_alongside (decl : FuncDecl) (receiver type : TypeRef) :
    Alongside (Tables.Matches moved view) (declareMethod scope decl receiver type)
      (declareMethod other (decl.renumber moved.file) (receiver.rename moved)
        (type.rename moved)) := by
  have symbol_eq : (⟨decl.name.name, .method (receiver.rename moved), other.package,
      type.rename moved, none⟩ : Symbol) =
        Symbol.rename moved ⟨decl.name.name, .method receiver, scope.package, type, none⟩ := by
    rw [scopes.package]
    rfl
  unfold declareMethod
  refine Alongside.bind (.modify fun _ _ same => same.recordReceiver decl.id receiver)
    fun _ _ _ => ?_
  change Alongside _ _ (newSymbol ⟨decl.name.name, .method (receiver.rename moved), other.package,
    type.rename moved, none⟩ >>= _)
  rw [symbol_eq]
  refine (newSymbol_alongside _).bind fun id another alike => ?_
  subst alike
  refine (recordUse_alongside decl.name.id id).bind fun _ _ _ => ?_
  rw [TypeRef.named?_rename]
  cases receiver.named? with
  | none => exact .pure trivial
  | some ref => exact .modify fun _ _ same => same.addMethod ref decl.name.name id

theorem declareSignature_alongside (decl : FuncDecl)
    (seen : decl.isMethod = false → view.node decl.name.id) :
    Alongside (Tables.Matches moved view) (declareSignature scope decl)
      (declareSignature other (decl.renumber moved.file)) := by
  refine .get_bind fun before after same => ?_
  have resolve (type : TypeExpr) := resolveType_rename same members scopes type
  have result : (decl.renumber moved.file).result.map (resolveType other after) =
      (decl.result.map (resolveType scope before)).map (TypeRef.rename moved) := by
    rw [Option.map_map]
    exact congrArg (Option.map · decl.result) (funext resolve)
  dsimp only
  rw [result, TypeRef.ofResult_map]
  cases receiver : decl.receiver with
  | some written =>
      simp only [FuncDecl.renumber, receiver, Option.map_some, Receiver.renumber, resolve]
      exact declareMethod_alongside scopes decl _ _
  | none =>
      have recorded : after.objectOf (decl.renumber moved.file).name =
          (before.objectOf decl.name).map moved.symbol :=
        same.objectOf_eq (seen (by simp [FuncDecl.isMethod, receiver]))
      simp only [recorded]
      simp only [FuncDecl.renumber, receiver, Option.map_none]
      cases before.objectOf decl.name with
      | none => exact .pure trivial
      | some id => exact fun _ _ _ => ⟨same.setType id _, trivial⟩

end Scope

end Resolution

end Relock
