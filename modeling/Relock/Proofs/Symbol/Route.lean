import Relock.Symbol.Table

/-!
# Routes to promoted members

A name selects a member of a type itself, or one of a type embedded in it. In the second case the
value passes through embedded fields that nobody writes. A search for the member that keeps track of
these fields finds the same member, together with the route to it.

Of a sequence of entities, each selected from the one before, only the fields lead from object to
object: those that are written, and before each of them the ones on the route to it.
-/

namespace Relock

/-- The embedded fields of a named type, with their own named types. -/
def NamedType.embeddedFields (type : NamedType) : List (SymbolId × NamedRef) :=
  match type.underlying with
  | .struct fields =>
      (fields.filter FieldInfo.embedded).filterMap fun field =>
        field.type.named?.map fun ref => (field.symbol, ref)
  | _ => []

theorem NamedType.map_snd_embeddedFields (type : NamedType) :
    type.embeddedFields.map Prod.snd = type.embedded := by
  unfold embeddedFields embedded
  cases type.underlying with
  | struct fields =>
      simp only [List.map_filterMap, Option.map_map, Function.comp_def, Option.map_id']
  | interface methods => rfl
  | other target => rfl

namespace Tables

variable {table : Std.TreeMap NamedRef NamedType} {tables : Tables}

/-- Look for a member as `searchMember` does, keeping with each type that waits the embedded fields
that lead to it. -/
def searchRoute (name : String) :
    (budget : Nat) → Std.TreeMap NamedRef NamedType → List (List SymbolId × NamedRef) →
      Option (List SymbolId × SymbolId)
  | 0, _, _ => none
  | budget + 1, table, waiting =>
      match waiting.dropWhile fun item => !table.contains item.2 with
      | [] => none
      | (fields, ref) :: waiting =>
          match table[ref]? with
          | none => none
          | some type =>
              match type.member? name with
              | some member => some (fields, member)
              | none =>
                  searchRoute name budget (table.erase ref)
                    (waiting ++
                      type.embeddedFields.map fun (field, ref) => (fields ++ [field], ref))

theorem map_snd_searchRoute (name : String) (budget : Nat) (table : Std.TreeMap NamedRef NamedType)
    (waiting : List (List SymbolId × NamedRef)) :
    (searchRoute name budget table waiting).map Prod.snd =
      searchMember name budget table (waiting.map Prod.snd) := by
  induction budget generalizing table waiting with
  | zero => rfl
  | succ budget ih =>
      unfold searchRoute searchMember
      rw [List.dropWhile_map]
      simp only [Function.comp_def]
      cases waiting.dropWhile fun item => !table.contains item.2 with
      | nil => rfl
      | cons item waiting =>
          obtain ⟨fields, ref⟩ := item
          simp only [List.map_cons]
          cases table[ref]? with
          | none => rfl
          | some type =>
              cases selected : type.member? name with
              | some member => simp only [selected, Option.map_some]
              | none =>
                  simp only [selected]
                  rw [ih, List.map_append, List.map_map, ← type.map_snd_embeddedFields]
                  rfl

/-- The member that a name selects in values of a type, and the embedded fields that lead to it. -/
def route? (tables : Tables) (type : TypeRef) (name : String) : Option (List SymbolId × SymbolId) :=
  searchRoute name (tables.named.size + 1) tables.named
    (type.named?.toList.map fun ref => ([], ref))

/-- Routes lead to the members that names select. -/
theorem map_snd_route? (tables : Tables) (type : TypeRef) (name : String) :
    (tables.route? type name).map Prod.snd = tables.member? type name := by
  rw [route?, map_snd_searchRoute, List.map_map]
  simp only [Function.comp_def, List.map_id']
  rfl

/-- The embedded fields between an entity and a member selected from it. -/
def promotion (tables : Tables) (base member : SymbolId) : List SymbolId :=
  match (tables.symbol? member).bind fun symbol =>
    tables.route? (tables.typeOf base) symbol.name with
  | some (fields, found) => if found = member then fields else []
  | none => []

/-- The fields that entities lead through, each selected from the one before, up to the last. -/
def fieldsTo (tables : Tables) : List SymbolId → List SymbolId
  | base :: member :: members =>
      tables.promotion base member ++ member :: tables.fieldsTo (member :: members)
  | _ => []

/-- The fields that entities lead through, up to the object from which the last one is selected. -/
def fieldsBefore (tables : Tables) : List SymbolId → List SymbolId
  | [base, member] => tables.promotion base member
  | base :: member :: members =>
      tables.promotion base member ++ member :: tables.fieldsBefore (member :: members)
  | _ => []

/-! ## Without embedded fields -/

/-- No type has embedded fields. -/
def Flat (table : Std.TreeMap NamedRef NamedType) : Prop :=
  ∀ (ref : NamedRef) (type : NamedType), table[ref]? = some type → type.embedded = []

theorem Flat.erase (flat : Flat table) (ref : NamedRef) : Flat (table.erase ref) := by
  intro other type found
  rw [Std.TreeMap.getElem?_erase] at found
  split at found
  · cases found
  · exact flat other type found

theorem fst_eq_nil_of_searchRoute {name : String} {budget : Nat}
    {waiting : List (List SymbolId × NamedRef)} {fields : List SymbolId} {member : SymbolId}
    (flat : Flat table) (direct : ∀ item ∈ waiting, item.1 = [])
    (found : searchRoute name budget table waiting = some (fields, member)) : fields = [] := by
  induction budget generalizing table waiting with
  | zero => cases found
  | succ budget ih =>
      unfold searchRoute at found
      cases left : waiting.dropWhile fun item => !table.contains item.2 with
      | nil => simp [left] at found
      | cons item later =>
          have kept : item :: later ⊆ waiting := left ▸ List.dropWhile_subset _
          obtain ⟨route, ref⟩ := item
          have route_eq : route = [] := direct (route, ref) (kept List.mem_cons_self)
          simp only [left] at found
          cases entry : table[ref]? with
          | none => simp [entry] at found
          | some type =>
              simp only [entry] at found
              cases selected : type.member? name with
              | some own =>
                  simp only [selected, Option.some.injEq, Prod.mk.injEq] at found
                  exact found.1.symm.trans route_eq
              | none =>
                  have none_embedded : type.embeddedFields = [] := by
                    rw [← List.map_eq_nil_iff, type.map_snd_embeddedFields, flat ref type entry]
                  simp only [selected, none_embedded, List.map_nil, List.append_nil] at found
                  exact ih (flat.erase ref)
                    (fun item member => direct item (kept (List.mem_cons_of_mem _ member))) found

variable (flat : Flat tables.named)
include flat

theorem promotion_of_flat (base member : SymbolId) : tables.promotion base member = [] := by
  unfold promotion
  split
  · rename_i fields found routed
    obtain ⟨symbol, -, routed⟩ := Option.bind_eq_some_iff.mp routed
    have fields_eq : fields = [] := fst_eq_nil_of_searchRoute flat (by simp) routed
    rw [fields_eq, ite_self]
  · rfl

theorem fieldsTo_of_flat (symbols : List SymbolId) : tables.fieldsTo symbols = symbols.tail := by
  fun_induction fieldsTo tables symbols with
  | case1 base member members ih =>
      rw [promotion_of_flat flat, ih]
      rfl
  | case2 symbols short =>
      match symbols, short with
      | [], _ => rfl
      | [base], _ => rfl
      | base :: member :: members, short => exact absurd rfl (short base member members)

theorem fieldsBefore_of_flat (symbols : List SymbolId) :
    tables.fieldsBefore symbols = symbols.tail.dropLast := by
  fun_induction fieldsBefore tables symbols with
  | case1 base member => exact promotion_of_flat flat base member
  | case2 base member members longer ih =>
      cases members with
      | nil => exact absurd rfl longer
      | cons next members =>
          rw [promotion_of_flat flat, ih]
          rfl
  | case3 symbols _ short =>
      match symbols, short with
      | [], _ => rfl
      | [base], _ => rfl
      | base :: member :: members, short => exact absurd rfl (short base member members)

end Tables

end Relock
