import Relock.Proofs.Reordering.Rounds

/-!
# Values in any order

The values of variables are resolved file by file, and a value that refers to a variable has the type
that the variable has at that time. So the order of the files matters, unless no value refers to a
variable of another file of which the type becomes known. With such values, two neighbouring files
can change places: in the known order the value of either refers to no variable that the other types,
and so it does the same when the other has not been there yet.
-/

namespace Relock

open Tables (afterAll Same Swapped)
open Resolution

/-- All but the values of files and the types of their variables. -/
def View.ofValues (tables : Tables) (items : List (FileScope × File)) : View where
  node node := ∀ unit ∈ items, ∀ mark ∈ unit.2.recorded .values, mark.id ≠ node
  typed id := ∀ unit ∈ items, ∀ ident ∈ unit.2.variableNames, tables.objectOf ident ≠ some id

/-- All but the values of a file and the types of its variables that become known. -/
def View.ofKnown (tables final : Tables) (unit : FileScope × File) : View where
  node node := ∀ mark ∈ unit.2.recorded .values, mark.id ≠ node
  typed id := ∀ ident ∈ unit.2.variableNames, tables.objectOf ident = some id →
    final.typeOf id = .unknown

theorem View.ofKnown_full (tables final : Tables) (unit : FileScope × File) :
    (View.ofKnown tables final unit).Full :=
  ⟨fun _ _ => trivial, fun _ => trivial, fun _ _ => trivial⟩

namespace Resolution

/-- What the values of a file make of the tables. -/
abbrev valueStep : FileScope × File → Tables → Tables :=
  resolveStepOf fun unit => unit.2.vars.forM (resolvePackageVars unit.1)

end Resolution

namespace Program

variable {program : Program}

/-- The tables with the values of some files. -/
def valuedBy (program : Program) (items : List (FileScope × File)) : Tables :=
  afterAll valueStep items program.signed

theorem valuedBy_eq (items : List (FileScope × File)) :
    program.valuedBy items = ((valuesRound items).run { tables := program.signed }).2.tables :=
  tables_resolveStepOf values_keeping items program.signed

theorem valuedBy_units : program.valuedBy program.units = program.valued.tables :=
  valuedBy_eq program.units

/-! ## Variables -/

theorem mem_variableNames {file : File} {ident : Ident} :
    ident ∈ file.variableNames ↔ ∃ spec ∈ file.vars, ident ∈ spec.names := by
  simp [File.variableNames]

theorem recorded_of_variable {file : File} {ident : Ident} (named : ident ∈ file.variableNames) :
    ∃ spec, .var spec ∈ file.decls ∧ ident.mark ∈ (Decl.var spec).recorded .names := by
  obtain ⟨spec, declared, listed⟩ := mem_variableNames.mp named
  exact ⟨spec, File.mem_vars.mp declared, List.mem_map_of_mem listed⟩

theorem name_of_variable {unit : FileScope × File} (listed : unit ∈ program.units) {ident : Ident}
    (named : ident ∈ unit.2.variableNames) : ident.mark ∈ program.recorded .names := by
  obtain ⟨spec, declared, marked⟩ := recorded_of_variable named
  exact List.mem_flatMap.mpr ⟨_, decl_mem_of_units listed declared, marked⟩

section Unique

variable (unique : program.UniqueIds)
include unique

/-- Two files declare different variables. -/
theorem variables_apart {first second : FileScope × File}
    (pair : [first, second].Subperm program.units) {ident other : Ident}
    (named : ident ∈ first.2.variableNames) (other_named : other ∈ second.2.variableNames)
    {id : SymbolId} (recorded : program.completed.objectOf ident = some id) :
    program.completed.objectOf other ≠ some id := by
  intro other_recorded
  obtain ⟨spec, declared, marked⟩ := recorded_of_variable named
  obtain ⟨later, later_declared, later_marked⟩ := recorded_of_variable other_named
  refine recorded_apart_of_pair pair unique .names .names _ (File.mem_recorded declared marked) _
    (File.mem_recorded later_declared later_marked) ?_
  exact name_injective unique (name_of_variable (pair.subset (by simp)) named)
    (name_of_variable (pair.subset (by simp)) other_named) recorded other_recorded

/-- Before values are resolved, the types of variables are not known. -/
theorem typeOf_variable {unit : FileScope × File} (listed : unit ∈ program.units) {ident : Ident}
    (named : ident ∈ unit.2.variableNames) {id : SymbolId}
    (recorded : program.completed.objectOf ident = some id) :
    id < program.signed.symbols.size ∧ program.signed.typeOf id = .unknown := by
  obtain ⟨spec, declared, marked⟩ := recorded_of_variable named
  obtain ⟨symbol, found, made⟩ := symbol_of_name unique listed declared marked recorded
  have old : id < program.named.symbols.size := (Array.getElem?_eq_some_iff.mp found).1
  have completed : program.named.Keeps .declared program.completed := types_keep_declared _ _
  have signed := signatures_keep_names unique (List.Subset.refl program.units)
  have below := Nat.lt_of_lt_of_le old completed.size
  have kind (other : Symbol) (other_found : program.completed.symbol? id = some other) :
      other.kind ≠ .func := by
    obtain ⟨later, later_found, untyped⟩ := completed.exists_symbol? found
    cases other_found.symm.trans later_found
    rw [Symbol.kind_eq_of_untyped untyped, made.kind]
    nofun
  refine ⟨Nat.lt_of_lt_of_le below signed.size, ?_⟩
  calc program.signed.typeOf id
      = program.completed.typeOf id := signed.typeOf id below kind
    _ = program.named.typeOf id := completed.typeOf id old trivial
    _ = .unknown := by
      rw [Tables.typeOf, found]
      exact made.type made.kind

/-! ## What values leave alone -/

section Some

variable {earlier rest : List (FileScope × File)}

/-- The values of some files, after those of others. -/
theorem values_kept (part : earlier ++ rest ⊆ program.units) :
    (program.valuedBy earlier).Keeps (.ofValues program.completed rest)
      (program.valuedBy (earlier ++ rest)) := by
  rw [List.append_subset] at part
  rw [valuedBy_eq, valuedBy_eq, valuesRound, run_forM_append]
  have apart : Mark.Apart (program.recorded .values) (program.recorded .names) :=
    unique.recorded_apart nofun
  have in_program {unit : FileScope × File} (listed : unit ∈ rest) {mark : Mark}
      (marked : mark ∈ unit.2.recorded .values) : mark ∈ program.recorded .values := by
    obtain ⟨decl, declared, recorded⟩ := List.mem_flatMap.mp marked
    exact List.mem_flatMap.mpr ⟨decl, decl_mem_of_units (part.2 listed) declared, recorded⟩
  refine values_keep_after unique part.1 part.2 (fun unit listed spec declared ident named => ?_)
    fun unit listed spec declared mark marked seen => ?_
  · have variable_mem := mem_variableNames.mpr ⟨spec, declared, named⟩
    exact ⟨fun other other_listed mark marked => apart mark (in_program other_listed marked) ident.mark
      (name_of_variable (part.2 listed) variable_mem),
      fun id recorded typed => typed unit listed ident variable_mem recorded⟩
  · exact seen unit listed mark
      (File.mem_recorded (File.mem_vars.mp declared) marked) rfl

variable {unit : FileScope × File} {ident : Ident} {id : SymbolId} {items : List (FileScope × File)}

/-- Nothing is known of the variables of a file before its own values are resolved. -/
theorem typeOf_before (part : (earlier ++ [unit]).Subperm program.units)
    (named : ident ∈ unit.2.variableNames) (recorded : program.completed.objectOf ident = some id) :
    (program.valuedBy earlier).typeOf id = .unknown := by
  have listed : unit ∈ program.units := part.subset (by simp)
  obtain ⟨old, unknown⟩ := typeOf_variable unique listed named recorded
  have kept := @values_kept _ unique [] earlier fun _ member => part.subset (by simp_all)
  refine (kept.typeOf id old fun other other_mem another other_named => ?_).trans unknown
  have pair : [unit, other].Subperm program.units := by
    have inside : [other, unit].Sublist (earlier ++ [unit]) :=
      (List.singleton_sublist.mpr other_mem).append (.refl [unit])
    exact (List.Perm.swap _ _ _).subperm.trans (inside.subperm.trans part)
  exact variables_apart unique pair named other_named recorded

/-- The values of a file leave alone all but the types that they make known. -/
theorem known_kept {final : Tables} (part : (earlier ++ [unit]).Subperm program.units)
    (settled : ∀ ident ∈ unit.2.variableNames, ∀ id, program.completed.objectOf ident = some id →
      final.typeOf id = .unknown → (program.valuedBy (earlier ++ [unit])).typeOf id = .unknown) :
    (program.valuedBy earlier).Keeps (.ofKnown program.completed final unit)
      (program.valuedBy (earlier ++ [unit])) := by
  have kept := values_kept unique part.subset
  have records (node : NodeId) (seen : (View.ofKnown program.completed final unit).node node) :
      (View.ofValues program.completed [unit]).node node :=
    fun other listed => List.mem_singleton.mp listed ▸ seen
  exact
  { size := kept.size
    shape := kept.shape
    typeOf := fun id old seen => by
      by_cases own : ∃ ident ∈ unit.2.variableNames, program.completed.objectOf ident = some id
      · obtain ⟨ident, named, recorded⟩ := own
        rw [settled ident named id recorded (seen ident named recorded),
          typeOf_before unique part named recorded]
      · refine kept.typeOf id old fun other listed ident named recorded => own ?_
        exact ⟨ident, List.mem_singleton.mp listed ▸ named, recorded⟩
    lookup := fun package name _ => kept.lookup package name trivial
    uses := fun node seen => kept.uses node (records node seen)
    selections := fun node seen => kept.selections node (records node seen)
    receivers := fun node seen => kept.receivers node (records node seen)
    named := fun ref _ => kept.named ref trivial
    types := kept.types }

theorem kind_variable (part : items ⊆ program.units) (listed : unit ∈ program.units)
    (named : ident ∈ unit.2.variableNames) (recorded : program.completed.objectOf ident = some id)
    {symbol : Symbol} (found : (program.valuedBy items).symbol? id = some symbol) :
    symbol.kind = .var .package := by
  obtain ⟨spec, declared, marked⟩ := recorded_of_variable named
  obtain ⟨first, first_found, made⟩ := symbol_of_name unique listed declared marked recorded
  obtain ⟨second, second_found, same⟩ := (types_keep_declared _ _).exists_symbol? first_found
  obtain ⟨third, third_found, also⟩ :=
    (signatures_keep_names unique (List.Subset.refl program.units)).exists_symbol? second_found
  obtain ⟨fourth, fourth_found, last⟩ :=
    (@values_kept _ unique [] items part).exists_symbol? third_found
  cases found.symm.trans fourth_found
  exact (Symbol.kind_eq_of_untyped (last.trans (also.trans same))).trans made.kind

theorem ofKnown_closed {final : Tables} (part : items ⊆ program.units)
    (listed : unit ∈ program.units) :
    (View.ofKnown program.completed final unit).Closed (program.valuedBy items) where
  fresh count ident named recorded := by
    have old := (typeOf_variable unique listed named recorded).1
    have grows := (@values_kept _ unique [] items part).size
    exact absurd (Nat.lt_of_lt_of_le old grows) (Nat.not_lt.mpr (Nat.le_add_right _ _))
  types id symbol found kind ident named recorded := by
    have is_variable := kind_variable unique part listed named recorded found
    cases kind.symm.trans is_variable
  underlying _ _ := trivial
  method _ _ _ := trivial

omit unique in
theorem valuedBy_bounded (part : items.Subperm program.units) :
    (program.valuedBy items).Bounded := by
  rw [valuedBy_eq]
  have steps := (@values_lead (ofUnits items) items _ { tables := program.signed }
    (fun unit member => program.ready_signed unit (part.subset member)) rfl).1
  exact bounded_of_sound (sound_after part.subset (program.sound_of_steps .refl) steps)

/-! ## The values of one file in two tables -/

theorem values_along {others : List (FileScope × File)} {moved : Renaming} {view : View}
    (listed : unit ∈ program.units) (continues : moved.Continues .refl program.signed.symbols.size)
    (full : view.Full)
    (seen : ∀ spec ∈ unit.2.vars, ∀ mark ∈ (Decl.var spec).marks, view.node mark.id)
    (matching : (program.valuedBy items).Matches moved view (program.valuedBy others))
    (clear : ∀ mark ∈ unit.2.recorded .values, ∀ id,
      (program.valuedBy (items ++ [unit])).uses[mark.id]? = some id →
      (program.valuedBy (others ++ [unit])).uses[mark.id]? = some (moved.symbol id) →
        view.typed id) :
    (program.valuedBy (items ++ [unit])).Matches moved view
      (program.valuedBy (others ++ [unit])) := by
  have corresponds : UnitMatches moved unit unit := .of_continues continues
    (program.imports_lt_size (grows_of_changes program.steps_signed) unit listed)
  have start : Resolving.Matches moved view { tables := program.valuedBy items }
      { tables := program.valuedBy others } := ⟨matching, .nil⟩
  rw [valuedBy, valuedBy, Tables.afterAll_concat, Tables.afterAll_concat] at clear ⊢
  refine (values_inStep corresponds full seen (unique.recorded_file listed .values) _ _ start
    fun mark marked id found other_found => clear mark marked id found ?_).1.tables
  rwa [continues.file] at other_found

/-! ## What is settled -/

section Settled

variable (part : (earlier ++ [unit] ++ rest).Subperm program.units)
include part

omit unique in
theorem pair_of_later {other : FileScope × File} (listed : other ∈ rest) :
    [unit, other].Subperm program.units := by
  have inside : [unit, other].Sublist (earlier ++ [unit] ++ rest) :=
    (List.sublist_append_right earlier [unit]).append (List.singleton_sublist.mpr listed)
  exact inside.subperm.trans part

/-- The later files leave the variables of a file alone. -/
theorem typeOf_after (named : ident ∈ unit.2.variableNames)
    (recorded : program.completed.objectOf ident = some id) :
    (program.valuedBy (earlier ++ [unit] ++ rest)).typeOf id =
      (program.valuedBy (earlier ++ [unit])).typeOf id := by
  have kept := values_kept unique part.subset
  have old := (typeOf_variable unique (part.subset (by simp)) named recorded).1
  have grows := (@values_kept _ unique [] (earlier ++ [unit]) fun _ member =>
    part.subset (List.mem_append_left _ member)).size
  refine kept.typeOf id (Nat.lt_of_lt_of_le old grows) ?_
  exact fun other listed another other_named =>
    variables_apart unique (pair_of_later part listed) named other_named recorded

/-- The later files leave the records in the values of a file alone. -/
theorem uses_after {mark : Mark} (marked : mark ∈ unit.2.recorded .values) :
    (program.valuedBy (earlier ++ [unit] ++ rest)).uses[mark.id]? =
      (program.valuedBy (earlier ++ [unit])).uses[mark.id]? := by
  refine (values_kept unique part.subset).uses mark.id fun other listed another other_marked => ?_
  exact (recorded_apart_of_pair (pair_of_later part listed) unique .values .values mark marked
    another other_marked).symm

end Settled

end Some

end Unique

/-! ## Two files that change places -/

/-- Whatever variable of another file a value refers to, its type does not become known. -/
def Apart (program : Program) : Prop :=
  ∀ first second, [first, second].Subperm program.units → ∀ mark ∈ first.2.recorded .values,
    ∀ ident ∈ second.2.variableNames, ∀ id, program.valued.tables.uses[mark.id]? = some id →
      program.completed.objectOf ident = some id → program.valued.tables.typeOf id = .unknown

section Swap

variable {units : List (FileScope × File)}
  (same : Same program.signed.symbols.size program.valued.tables (program.valuedBy units))
include same

/-- The types of what exists before values do not depend on the order. -/
theorem typeOf_same {id : SymbolId} (old : id < program.signed.symbols.size) :
    (program.valuedBy units).typeOf id = program.valued.tables.typeOf id := by
  obtain ⟨moved, continues, matching⟩ := same
  have type := matching.typeOf id trivial
  rwa [continues.symbol id old, continues.rename_type] at type

theorem uses_same {node : NodeId} {id : SymbolId} (old : id < program.signed.symbols.size)
    (found : (program.valuedBy units).uses[node]? = some id) :
    program.valued.tables.uses[node]? = some id := by
  obtain ⟨moved, continues, matching⟩ := same
  have recorded := matching.uses node trivial
  rw [continues.file] at recorded
  obtain ⟨other, other_found, renamed⟩ := Option.map_eq_some_iff.mp (recorded.symm.trans found)
  have fixed : moved.symbol id = id := continues.symbol id old
  rw [other_found, moved.symbol_injective (renamed.trans fixed.symm)]

end Swap

section Known

variable (unique : program.UniqueIds) {earlier rest : List (FileScope × File)}
  {unit other : FileScope × File} (whole : (earlier ++ unit :: rest).Perm program.units)
  (same : Same program.signed.symbols.size program.valued.tables
    (program.valuedBy (earlier ++ unit :: rest)))
include unique whole same

/-- In a known order, the values of a file refer to no variable of another one that is typed. -/
theorem unknown_of_use (apart : program.Apart) (pair : [unit, other].Subperm program.units)
    {mark : Mark} (marked : mark ∈ unit.2.recorded .values) {id : SymbolId}
    (recorded : (program.valuedBy (earlier ++ [unit])).uses[mark.id]? = some id) {ident : Ident}
    (named : ident ∈ other.2.variableNames)
    (declared : program.completed.objectOf ident = some id) :
    program.valued.tables.typeOf id = .unknown := by
  rw [List.append_cons] at whole same
  have old := (typeOf_variable unique (pair.subset (by simp)) named declared).1
  rw [← uses_after unique whole.subperm marked] at recorded
  exact apart unit other pair mark marked ident named id (uses_same same old recorded) declared

/-- In a known order, the values of a file make known of its variables what there is to know. -/
theorem typeOf_settled {ident : Ident} (named : ident ∈ unit.2.variableNames) {id : SymbolId}
    (recorded : program.completed.objectOf ident = some id) :
    (program.valuedBy (earlier ++ [unit])).typeOf id = program.valued.tables.typeOf id := by
  rw [List.append_cons] at whole same
  have old := (typeOf_variable unique (whole.subset (by simp)) named recorded).1
  rw [← typeOf_after unique whole.subperm named recorded, typeOf_same same old]

theorem known_kept_of_same :
    (program.valuedBy earlier).Keeps (.ofKnown program.completed program.valued.tables unit)
      (program.valuedBy (earlier ++ [unit])) := by
  have part : (earlier ++ [unit]).Subperm program.units :=
    ((List.Sublist.refl earlier).append (by simp)).subperm.trans whole.subperm
  exact known_kept unique part fun ident named id recorded unknown =>
    (typeOf_settled unique whole same named recorded).trans unknown

end Known

section Neighbours

variable (unique : program.UniqueIds) {earlier rest : List (FileScope × File)}
  {first second : FileScope × File} (adjacent : Adjacent program.units earlier first second)
include unique adjacent

/-- The values of one file do the same after those of another, if they do not depend on them. -/
theorem past_of_clear
    (keeps : (program.valuedBy earlier).Keeps
      (.ofKnown program.completed program.valued.tables first) (program.valuedBy (earlier ++ [first])))
    (clear : ∀ mark ∈ second.2.recorded .values, ∀ id,
      (program.valuedBy (earlier ++ [second])).uses[mark.id]? = some id →
      (program.valuedBy (earlier ++ [first, second])).uses[mark.id]? =
        some ((Renaming.shifting keeps.size).symbol id) →
      (View.ofKnown program.completed program.valued.tables first).typed id) :
    (program.valuedBy (earlier ++ [second])).Matches (.shifting keeps.size)
      (.ofKnown program.completed program.valued.tables first)
      (program.valuedBy (earlier ++ [first, second])) := by
  have grows := (@values_kept _ unique [] earlier adjacent.before.subset).size
  have continues := (Swapped.shifting_continues keeps.size).mono grows
  have matching := keeps.matches_shifting (valuedBy_bounded adjacent.before)
    (ofKnown_closed unique adjacent.before.subset adjacent.first_mem)
  rw [List.append_cons earlier first [second]] at clear ⊢
  refine values_along unique adjacent.symm.first_mem continues (View.ofKnown_full _ _ _)
    (fun spec declared mark marked other other_listed => ?_) matching clear
  obtain ⟨decl, decl_mem, other_marked⟩ := File.exists_of_recorded other_listed
  exact apart_of_pair adjacent.pair unique other
    (List.mem_flatMap.mpr ⟨decl, decl_mem, other_marked⟩) mark
    (List.mem_flatMap.mpr ⟨_, File.mem_vars.mp declared, marked⟩)

/-- What the values of a file make known of its variables, they make known in either order. -/
theorem typeOf_past {grows : (program.valuedBy earlier).symbols.size ≤
      (program.valuedBy (earlier ++ [first])).symbols.size}
    (matching : (program.valuedBy (earlier ++ [second])).Matches (.shifting grows)
      (.ofKnown program.completed program.valued.tables first)
      (program.valuedBy (earlier ++ [first, second]))) {ident : Ident}
    (named : ident ∈ second.2.variableNames) {id : SymbolId}
    (recorded : program.completed.objectOf ident = some id) :
    (program.valuedBy (earlier ++ [first, second])).typeOf id =
      (program.valuedBy (earlier ++ [second])).typeOf id := by
  have old := (typeOf_variable unique adjacent.symm.first_mem named recorded).1
  have continues := (Swapped.shifting_continues grows).mono
    (@values_kept _ unique [] earlier adjacent.before.subset).size
  have type := matching.typeOf id fun another other_named other_recorded =>
    absurd recorded (variables_apart unique adjacent.pair other_named named other_recorded)
  rwa [continues.symbol id old, continues.rename_type] at type

theorem known_cover (tables : Tables) :
    (View.ofKnown program.completed program.valued.tables first).Cover
      (.ofKnown program.completed program.valued.tables second) tables where
  node := (recorded_apart_of_pair adjacent.pair unique .values .values).node_or
  typed id := by
    by_cases own : ∃ ident ∈ first.2.variableNames, program.completed.objectOf ident = some id
    · obtain ⟨ident, named, recorded⟩ := own
      exact .inr fun other other_named other_recorded =>
        absurd other_recorded (variables_apart unique adjacent.pair named other_named recorded)
    · exact .inl fun ident named recorded => absurd ⟨ident, named, recorded⟩ own
  member _ _ := .inl trivial
  underlying _ _ := .inl ⟨trivial, trivial⟩
  method _ _ _ := .inl ⟨trivial, trivial⟩

omit adjacent in
/-- Two files can change places where the order before is known. -/
theorem values_same_of_swap (apart : program.Apart)
    (whole : (earlier ++ first :: second :: rest).Perm program.units)
    (same : Same program.signed.symbols.size program.valued.tables
      (program.valuedBy (earlier ++ first :: second :: rest))) :
    Same program.signed.symbols.size (program.valuedBy (earlier ++ [first, second]))
      (program.valuedBy (earlier ++ [second, first])) := by
  have adjacent := Adjacent.of_perm whole
  have grows := (@values_kept _ unique [] earlier adjacent.before.subset).size
  -- The same order, seen from the second file.
  have later_whole : (earlier ++ [first] ++ second :: rest).Perm program.units := by simpa using whole
  have later_same : Same program.signed.symbols.size program.valued.tables
      (program.valuedBy (earlier ++ [first] ++ second :: rest)) := by simpa using same
  have left_keeps := known_kept_of_same unique whole same
  have both_keeps := known_kept_of_same unique later_whole later_same
  have both_settled {ident : Ident} (named : ident ∈ second.2.variableNames) {id : SymbolId}
      (recorded : program.completed.objectOf ident = some id) :
      (program.valuedBy (earlier ++ [first, second])).typeOf id = program.valued.tables.typeOf id := by
    simpa using typeOf_settled unique later_whole later_same named recorded
  rw [List.append_assoc] at both_keeps
  have both_along := past_of_clear unique adjacent left_keeps
    fun mark marked id _ recorded ident named declared => by
      have old := (typeOf_variable unique adjacent.first_mem named declared).1
      have fixed : (Renaming.shifting left_keeps.size).symbol id = id :=
        ((Swapped.shifting_continues left_keeps.size).mono grows).symbol id old
      rw [fixed, List.append_cons] at recorded
      exact unknown_of_use unique later_whole later_same apart adjacent.symm.pair marked recorded named
        declared
  -- The second file does not depend on the first one, so it makes nothing else known before it.
  have right_keeps := known_kept unique adjacent.symm.with_first
    fun ident named id recorded unknown => by
      rw [← typeOf_past unique adjacent both_along named recorded, both_settled named recorded, unknown]
  have other_along := past_of_clear unique adjacent.symm right_keeps
    fun mark marked id recorded _ ident named declared =>
      unknown_of_use unique whole same apart adjacent.pair marked recorded named declared
  have other_keeps := @known_kept _ unique (earlier ++ [second]) _ program.valued.tables
    adjacent.symm.with_both fun ident named id recorded unknown => by
      rw [List.append_assoc, List.singleton_append,
        typeOf_past unique adjacent.symm other_along named recorded,
        typeOf_settled unique whole same named recorded, unknown]
  rw [List.append_assoc] at other_keeps
  have swapped : Swapped (program.valuedBy earlier) _ _ _ _ _ _ :=
  { left_keeps
    right_keeps
    left_bounded := valuedBy_bounded adjacent.with_first
    right_bounded := valuedBy_bounded adjacent.symm.with_first
    left_fresh := (ofKnown_closed unique adjacent.before.subset adjacent.first_mem).fresh
    right_fresh := (ofKnown_closed unique adjacent.before.subset adjacent.symm.first_mem).fresh
    both_along
    other_along
    both_keeps
    other_keeps
    cover := known_cover unique adjacent _ }
  exact swapped.same.mono grows

end Neighbours

/-- With values that do not depend on the variables of other files, the order of the files does not
matter. -/
theorem values_same (unique : program.UniqueIds) (apart : program.Apart)
    {others : List (FileScope × File)} (order : others.Perm program.units) :
    Same program.signed.symbols.size program.valued.tables (program.valuedBy others) := by
  rw [← valuedBy_units]
  refine .of_perm (fun items others unit part other_part same => ?_)
    (fun earlier first second rest whole same => ?_) order
  · obtain ⟨moved, continues, matching⟩ := same
    exact ⟨moved, continues, values_along unique (part.subset (by simp)) continues
      View.full_all (fun _ _ _ _ => trivial) matching fun _ _ _ _ _ => trivial⟩
  · exact values_same_of_swap unique apart whole (valuedBy_units ▸ same)

end Program

end Relock
