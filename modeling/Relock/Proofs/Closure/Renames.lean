import Relock.Proofs.Renaming.Programs
import Relock.Proofs.Sample

/-!
# Closures behind renames

A call runs the closure literal that its callee is, or the one that variables lead to, each bound
for good to the next of them and the last to the literal. The search for it follows exactly these
variables, up to the limit. So it finds nothing behind variables that are bound in a circle, behind
too many of them, and behind parameters, which no statement binds.
-/

namespace Relock

namespace Expr

/-- The expression is a name of a variable, in parentheses or not. -/
def IsName (expr : Expr) (tables : Tables) (id : SymbolId) : Prop :=
  ∃ ident, expr.unparen = .ident ident ∧ tables.objectOf ident = some id

/-- The expression is a closure literal, in parentheses or not. -/
def IsClosure (expr : Expr) (literal : Closure) : Prop :=
  expr.unparen = .literal literal.id literal.params literal.result literal.body.body
    literal.body.span literal.span

variable {expr : Expr} {tables : Tables}

theorem IsName.eq {id other : SymbolId} (name : expr.IsName tables id)
    (second : expr.IsName tables other) : id = other := by
  obtain ⟨ident, unparen, recorded⟩ := name
  obtain ⟨again, unparen_again, recorded_again⟩ := second
  cases unparen.symm.trans unparen_again
  exact Option.some.inj (recorded.symm.trans recorded_again)

theorem IsClosure.not_isName {literal : Closure} (closure : expr.IsClosure literal)
    (id : SymbolId) : ¬ expr.IsName tables id := by
  rintro ⟨ident, unparen, -⟩
  cases closure.symm.trans unparen

theorem isName_iff_targetName? {id : SymbolId} : expr.IsName tables id ↔
    ∃ ident, Binding.targetName? expr = some ident ∧ tables.objectOf ident = some id := by
  refine exists_congr fun ident => and_congr_left fun _ => ?_
  unfold Binding.targetName?
  cases expr.unparen <;> simp

end Expr

/-- The name at a position of a binding is recorded for a variable. -/
def Binding.NamesAt (binding : Binding) (tables : Tables) (position : Nat) (id : SymbolId) : Prop :=
  ∃ ident, binding.names[position]? = some (some ident) ∧ tables.objectOf ident = some id

namespace Program

variable (program : Program)

/-- A binding declares a variable and gives it a value for good. -/
structure Settles (binding : Binding) (position : Nat) (id : SymbolId) (value : Expr) : Prop where
  listed : binding ∈ program.bindings
  declares : program.resolve.declOf? id = some binding.id
  /-- No other assignment in the program has the variable as a target. -/
  sole : ∀ assignment, program.Contains (.stmt assignment.stmt) → .assign assignment ≠ binding →
    ∀ target ∈ assignment.targets, ¬ target.IsName program.resolve id
  balanced : binding.names.length = binding.values.length
  /-- The position is the first one whose name is recorded for the variable. -/
  named : binding.NamesAt program.resolve position id
  first : ∀ earlier < position, ¬ binding.NamesAt program.resolve earlier id
  given : binding.values[position]? = some value

/-- A variable is bound to a value for good. -/
def BoundTo (id : SymbolId) (value : Expr) : Prop :=
  ∃ binding position, program.Settles binding position id value

/-- An expression leads through variables to another expression: it is the name of the first of
them, each is bound for good to a name of the next, and the last is bound for good to the other
expression. -/
inductive Follows : Expr → List SymbolId → Expr → Prop where
  | here (expr : Expr) : Follows expr [] expr
  | rename {expr value last : Expr} {id : SymbolId} {passed : List SymbolId}
      (named : expr.IsName program.resolve id) (bound : program.BoundTo id value)
      (rest : Follows value passed last) : Follows expr (id :: passed) last

variable {program}

/-- A binding is found by its own number. -/
theorem id_eq_of_bindingTable {id : NodeId} {binding : Binding}
    (found : program.bindingTable[id]? = some binding) : binding.id = id := by
  unfold bindingTable at found
  refine List.foldlRecOn (motive := fun table : Std.TreeMap NodeId Binding =>
    ∀ (id : NodeId) (binding : Binding), table[id]? = some binding → binding.id = id)
    _ _ ?_ ?_ id binding found
  · intro id binding found
    simp at found
  · intro table recorded next _ id binding found
    rcases found_of_insert found with ⟨same, rfl⟩ | found
    · exact same
    · exact recorded id binding found

theorem UniqueIds.binding_eq (unique : program.UniqueIds) {binding other : Binding}
    (listed : binding ∈ program.bindings) (other_listed : other ∈ program.bindings)
    (same : binding.id = other.id) : binding = other := by
  have found := unique.bindingTable_eq listed
  rw [same, unique.bindingTable_eq other_listed] at found
  exact (Option.some.inj found).symm

/-- A variable is bound for good to one value at most. -/
theorem BoundTo.eq (unique : program.UniqueIds) {id : SymbolId} {value other : Expr}
    (bound : program.BoundTo id value) (again : program.BoundTo id other) : value = other := by
  obtain ⟨binding, position, settles⟩ := bound
  obtain ⟨second, place, settles_again⟩ := again
  have same_id : binding.id = second.id :=
    Option.some.inj (settles.declares.symm.trans settles_again.declares)
  cases unique.binding_eq settles.listed settles_again.listed same_id
  have same_place : position = place := by
    refine Nat.le_antisymm (Nat.le_of_not_lt fun less => ?_) (Nat.le_of_not_lt fun less => ?_)
    · exact settles.first place less settles_again.named
    · exact settles_again.first position less settles.named
  cases same_place
  exact Option.some.inj (settles.given.symm.trans settles_again.given)

namespace Follows

variable {expr last : Expr} {passed : List SymbolId}

/-- Variables that are followed can be followed up to any of them. -/
theorem split {front back : List SymbolId} (follows : program.Follows expr (front ++ back) last) :
    ∃ middle, program.Follows expr front middle ∧ program.Follows middle back last := by
  induction front generalizing expr with
  | nil => exact ⟨expr, .here expr, follows⟩
  | cons id front ih =>
      cases follows with
      | rename named bound rest =>
          obtain ⟨middle, before, after⟩ := ih rest
          exact ⟨middle, .rename named bound before, after⟩

theorem append {middle : Expr} {further : List SymbolId}
    (follows : program.Follows expr passed middle) (rest : program.Follows middle further last) :
    program.Follows expr (passed ++ further) last := by
  induction follows with
  | here => exact rest
  | rename named bound _ ih => exact .rename named bound (ih rest)

/-- Up to a closure literal there is one way to follow variables: what else can be followed is the
beginning of it. -/
theorem rest_of_closure (unique : program.UniqueIds) {literal : Closure}
    (follows : program.Follows expr passed last) (closure : last.IsClosure literal)
    {others : List SymbolId} {middle : Expr} (also : program.Follows expr others middle) :
    ∃ further, passed = others ++ further ∧ program.Follows middle further last := by
  induction also generalizing passed with
  | here => exact ⟨passed, rfl, follows⟩
  | rename named bound _ ih =>
      cases follows with
      | here => exact absurd named (closure.not_isName _)
      | rename named_again bound_again rest =>
          cases named.eq named_again
          cases bound.eq unique bound_again
          obtain ⟨further, rfl, follows⟩ := ih rest
          exact ⟨further, rfl, follows⟩

/-- No variable is met twice on the way to a closure literal. -/
theorem nodup_of_closure (unique : program.UniqueIds) {literal : Closure}
    (follows : program.Follows expr passed last) (closure : last.IsClosure literal) :
    passed.Nodup := by
  induction follows with
  | here => exact .nil
  | @rename expr value last id passed named bound rest ih =>
      refine List.nodup_cons.mpr ⟨fun repeated => ?_, ih closure⟩
      -- From the second time on the way would be as long as from the first time on.
      obtain ⟨front, back, rfl⟩ := List.append_of_mem repeated
      obtain ⟨middle, -, after⟩ := rest.split
      cases after with
      | rename _ bound_again rest_again =>
          cases bound.eq unique bound_again
          obtain ⟨further, lists, -⟩ := rest_again.rest_of_closure unique closure rest
          have lengths := congrArg List.length lists
          simp only [List.length_append, List.length_cons] at lengths
          omega

end Follows

end Program

namespace Subject

variable {program : Program} {config : Config} {renames : Nat} {expr : Expr} {literal : Closure}

/-- A variable is reassigned if an assignment other than the binding that declares it has it as a
target. -/
theorem isReassigned_eq_false_iff (unique : program.UniqueIds) {binding : Binding}
    {id : SymbolId} (listed : binding ∈ program.bindings)
    (declares : program.resolve.declOf? id = some binding.id) :
    (ofProgram program config).isReassigned id = false ↔
      ∀ assignment, program.Contains (.stmt assignment.stmt) → .assign assignment ≠ binding →
        ∀ target ∈ assignment.targets, ¬ target.IsName program.resolve id := by
  have other_iff {assignment : Assignment} (member : assignment ∈ program.assignments) :
      .assign assignment ≠ binding ↔ program.resolve.declOf? id ≠ some assignment.id := by
    rw [declares, not_iff_not, Option.some_inj]
    refine ⟨fun same => by rw [← same]; rfl, fun same => ?_⟩
    exact (unique.binding_eq listed (Program.mem_assignments.mp member) same).symm
  rw [← Bool.not_eq_true, isReassigned_iff]
  constructor
  · intro kept assignment contained other target target_mem name
    have member := Program.mem_assignments_iff.mpr contained
    obtain ⟨ident, named, recorded⟩ := Expr.isName_iff_targetName?.mp name
    refine kept ⟨assignment, member, List.mem_filterMap.mpr ⟨target, target_mem, ?_⟩⟩
    have apart := (other_iff member).mp other
    simp only [named, recorded, Option.bind_eq_bind, Option.bind_some]
    exact if_neg apart
  · rintro kept ⟨assignment, member, reassigned⟩
    obtain ⟨target, target_mem, found⟩ := List.mem_filterMap.mp reassigned
    obtain ⟨ident, named, found⟩ := Option.bind_eq_some_iff.mp found
    obtain ⟨symbol, recorded, found⟩ := Option.bind_eq_some_iff.mp found
    split at found
    · cases found
    · rename_i apart
      cases found
      exact kept assignment (Program.mem_assignments_iff.mp member) ((other_iff member).mpr apart)
        target target_mem (Expr.isName_iff_targetName?.mpr ⟨ident, named, recorded⟩)

theorem findIdx?_names_iff {tables : Tables} {binding : Binding} {id : SymbolId} {position : Nat} :
    (binding.names.findIdx? fun name => name.bind tables.objectOf == some id) = some position ↔
      binding.NamesAt tables position id ∧
        ∀ earlier < position, ¬ binding.NamesAt tables earlier id := by
  have namesAt_iff {place : Nat} (bound : place < binding.names.length) :
      binding.NamesAt tables place id ↔
        (binding.names[place].bind tables.objectOf == some id) = true := by
    rw [beq_iff_eq, Option.bind_eq_some_iff, Binding.NamesAt]
    refine exists_congr fun ident => and_congr_left fun _ => ?_
    rw [List.getElem?_eq_getElem bound, Option.some_inj]
  rw [List.findIdx?_eq_some_iff_getElem]
  constructor
  · rintro ⟨bound, here, before⟩
    refine ⟨(namesAt_iff bound).mpr here, fun earlier less named => ?_⟩
    exact before earlier less ((namesAt_iff (less.trans bound)).mp named)
  · rintro ⟨named, before⟩
    obtain ⟨ident, found, recorded⟩ := named
    have bound := (List.getElem?_eq_some_iff.mp found).1
    refine ⟨bound, (namesAt_iff bound).mp ⟨ident, found, recorded⟩, fun earlier less here => ?_⟩
    exact before earlier less ((namesAt_iff (less.trans bound)).mpr here)

/-- The value found for a name is the one that its variable is bound to for good. -/
theorem boundValue?_eq_some_iff (unique : program.UniqueIds) {ident : Ident} {value : Expr} :
    (ofProgram program config).boundValue? ident = some value ↔
      ∃ id, program.resolve.objectOf ident = some id ∧ program.BoundTo id value := by
  rw [boundValue?, Option.bind_eq_bind, Option.bind_eq_some_iff]
  refine exists_congr fun id => and_congr_right fun recorded => ?_
  constructor
  · intro found
    split at found
    · cases found
    · rename_i kept
      obtain ⟨node, declares, chosen⟩ := Option.bind_eq_some_iff.mp found
      obtain ⟨binding, looked, aligned⟩ := Option.bind_eq_some_iff.mp chosen
      have listed := program.mem_bindings_of_bindingTable looked
      cases Program.id_eq_of_bindingTable looked
      split at aligned
      · rename_i balanced
        obtain ⟨position, place, given⟩ := Option.bind_eq_some_iff.mp aligned
        obtain ⟨named, first⟩ := findIdx?_names_iff.mp place
        exact ⟨binding, position, listed, declares,
          (isReassigned_eq_false_iff unique listed declares).mp (Bool.eq_false_iff.mpr kept),
          balanced, named, first, given⟩
      · cases aligned
  · rintro ⟨binding, position, settles⟩
    have kept := (@isReassigned_eq_false_iff program config unique binding id settles.listed
      settles.declares).mpr settles.sole
    rw [if_neg (Bool.not_eq_true _ ▸ kept)]
    refine Option.bind_eq_some_iff.mpr ⟨binding.id, settles.declares, ?_⟩
    refine Option.bind_eq_some_iff.mpr ⟨binding, unique.bindingTable_eq settles.listed, ?_⟩
    rw [if_pos settles.balanced]
    exact Option.bind_eq_some_iff.mpr
      ⟨position, findIdx?_names_iff.mpr ⟨settles.named, settles.first⟩, settles.given⟩

/-- A literal is found for an expression that is the literal, and through one variable more than
for the value that a variable is bound to. -/
theorem closureOf?_eq_some_iff_step (unique : program.UniqueIds) :
    (ofProgram program config).closureOf? renames expr = some literal ↔
      expr.IsClosure literal ∨ ∃ fewer id value, renames = fewer + 1 ∧
        expr.IsName program.resolve id ∧ program.BoundTo id value ∧
        (ofProgram program config).closureOf? fewer value = some literal := by
  constructor
  · intro found
    unfold closureOf? at found
    split at found
    · rename_i unparen
      cases found
      exact .inl unparen
    · rename_i fewer ident unparen
      obtain ⟨value, bound, found⟩ := Option.bind_eq_some_iff.mp found
      obtain ⟨id, recorded, bound⟩ := (boundValue?_eq_some_iff unique).mp bound
      exact .inr ⟨fewer, id, value, rfl, ⟨ident, unparen, recorded⟩, bound, found⟩
    · cases found
  · rintro (closure | ⟨fewer, id, value, rfl, ⟨ident, unparen, recorded⟩, bound, found⟩)
    · unfold closureOf?
      rw [Expr.IsClosure] at closure
      simp [closure]
    · unfold closureOf?
      have bound_eq := (@boundValue?_eq_some_iff program config unique ident value).mpr
        ⟨id, recorded, bound⟩
      simp [unparen, bound_eq, found]

/-- A literal is found exactly if variables lead to it, no more than may be followed. -/
theorem closureOf?_eq_some_iff (unique : program.UniqueIds) :
    (ofProgram program config).closureOf? renames expr = some literal ↔
      ∃ passed last, passed.length ≤ renames ∧ program.Follows expr passed last ∧
        last.IsClosure literal := by
  induction renames generalizing expr with
  | zero =>
      rw [closureOf?_eq_some_iff_step unique]
      constructor
      · rintro (closure | ⟨_, _, _, renames, -⟩)
        · exact ⟨[], expr, Nat.le_refl 0, .here expr, closure⟩
        · cases renames
      · rintro ⟨passed, last, few, follows, closure⟩
        cases List.eq_nil_of_length_eq_zero (Nat.le_zero.mp few)
        cases follows
        exact .inl closure
  | succ renames ih =>
      rw [closureOf?_eq_some_iff_step unique]
      constructor
      · rintro (closure | ⟨fewer, id, value, same, named, bound, found⟩)
        · exact ⟨[], expr, Nat.zero_le _, .here expr, closure⟩
        · cases same
          obtain ⟨passed, last, few, follows, closure⟩ := ih.mp found
          exact ⟨id :: passed, last, Nat.succ_le_succ few, .rename named bound follows, closure⟩
      · rintro ⟨passed, last, few, follows, closure⟩
        cases follows with
        | here => exact .inl closure
        | @rename _ value _ id passed named bound rest =>
            exact .inr ⟨renames, id, value, rfl, named, bound,
              ih.mpr ⟨passed, last, Nat.le_of_succ_le_succ few, rest, closure⟩⟩

end Subject

/-! ## Parameters -/

/-- If a statement declares the entity, it is a variable of a package or of a block. -/
def Symbol.Placed (symbol : Symbol) : Prop :=
  symbol.decl.isSome = true → symbol.kind = .var .package ∨ symbol.kind = .var .local

namespace Tables

/-- Statements declare variables of packages and of blocks only. -/
def Placed (tables : Tables) : Prop :=
  ∀ id symbol, tables.symbol? id = some symbol → symbol.Placed

variable {before after : Tables}

theorem Placed.of_eq (placed : before.Placed) (same : after.symbols = before.symbols) :
    after.Placed := by
  intro id symbol found
  rw [symbol?, same] at found
  exact placed id symbol found

theorem Placed.of_push (placed : before.Placed) {added : Symbol} (added_placed : added.Placed)
    (pushed : after.symbols = before.symbols.push added) : after.Placed := by
  intro id symbol found
  rw [symbol?, pushed, Array.getElem?_push] at found
  split at found
  · cases found
    exact added_placed
  · exact placed id symbol found

theorem Placed.setType (placed : before.Placed) (changed : SymbolId) (type : TypeRef) :
    (before.setType changed type).Placed := by
  intro id symbol found
  rw [symbol?, Tables.setType, Array.getElem?_modify] at found
  split at found
  · obtain ⟨old, old_found, rfl⟩ := Option.map_eq_some_iff.mp found
    exact placed id old old_found
  · exact placed id symbol found

end Tables

namespace Resolution

theorem Change.placed {declared : List (PackageId × FuncDecl)} {marks : List Mark}
    {before after : Tables} (change : Change declared marks before after)
    (placed : before.Placed) : after.Placed := by
  cases change with
  | package | use | named | underlying => exact placed.of_eq rfl
  | part symbol kind untyped within unbound =>
      exact placed.of_push (by simp [Symbol.Placed, unbound]) rfl
  | type | function => exact placed.of_push (by simp [Symbol.Placed]) rfl
  | var => exact placed.of_push (fun _ => .inl rfl) rfl
  | method scope decl written type =>
      exact placed.of_push (by simp [Symbol.Placed]) (before.symbols_declareMethod _ decl _ type)
  | retype package decl id type => exact placed.setType id type

theorem Step.placed {scope : FileScope} {marks : List Mark} {before after : Resolving}
    (step : Step scope marks before after) (placed : before.tables.Placed) :
    after.tables.Placed := by
  cases step with
  | push | pop => exact placed
  | refer | select => exact placed.of_eq rfl
  | declare place type decl ident marked own within bound =>
      exact placed.of_push (fun some => .inr (congrArg SymbolKind.var (bound some))) rfl
  | retype symbol type => exact placed.setType symbol type

end Resolution

open Resolution in
theorem Program.placed_resolve (program : Program) : program.resolve.Placed := by
  obtain ⟨units, declared, final, run⟩ := exists_runs program
  have start : Predeclared.tables.Placed := fun id symbol found some => by
    have member := Array.mem_toList_iff.mpr (Array.mem_of_getElem? found)
    simp [Predeclared.decl_eq_none_all symbol member] at some
  have placed := kept_of_steps (fun _ _ change => change.placed) run.changes start
  rw [run.tables_eq]
  have keeps (before after : Resolving) (step : StepIn units program.marks before after) :
      before.tables.Placed → after.tables.Placed := by
    obtain ⟨unit, -, step⟩ := step
    exact step.placed
  exact kept_of_steps keeps run.steps placed

/-- No value is bound to a parameter or receiver for good. -/
theorem Program.BoundTo.not_param {program : Program} {id : SymbolId} {value : Expr}
    (bound : program.BoundTo id value) {symbol : Symbol}
    (known : program.resolve.symbol? id = some symbol) :
    symbol.kind ≠ .var .param ∧ symbol.kind ≠ .var .receiver := by
  obtain ⟨binding, position, settles⟩ := bound
  have declares := settles.declares
  rw [Tables.declOf?, known, Option.bind_some] at declares
  rcases program.placed_resolve id symbol known (by simp [declares]) with kind | kind <;>
    simp [kind]

namespace Subject

variable {program : Program} {config : Config}

/-- A literal is found behind all the variables that are followed from the callee, or none is. -/
theorem exists_rest_of_closure? (unique : program.UniqueIds) {call : Call} {literal : Closure}
    (found : (ofProgram program config).closure? call = some literal) {passed : List SymbolId}
    {last : Expr} (follows : program.Follows call.callee passed last) :
    ∃ further final, passed.length + further.length ≤ maxRenames ∧
      program.Follows last further final ∧ final.IsClosure literal := by
  obtain ⟨whole, final, few, all, closure⟩ := (closureOf?_eq_some_iff unique).mp found
  obtain ⟨further, rfl, rest⟩ := all.rest_of_closure unique closure follows
  exact ⟨further, final, by simpa using few, rest, closure⟩

/-- A call runs the literal that variables lead to, at most sixteen of them, each bound for good.
There is none behind more variables, behind variables that are bound in a circle, and behind a
parameter or receiver. -/
theorem closure?_exact (program : Program) (config : Config) (unique : program.UniqueIds)
    (call : Call) :
    (∀ literal, (ofProgram program config).closure? call = some literal ↔
      ∃ passed last, passed.length ≤ 16 ∧ program.Follows call.callee passed last ∧
        last.IsClosure literal) ∧
    (∀ passed last, program.Follows call.callee passed last →
      16 < passed.length ∨ ¬ passed.Nodup →
        (ofProgram program config).closure? call = none) ∧
    ∀ passed last id symbol, program.Follows call.callee passed last →
      last.IsName program.resolve id → program.resolve.symbol? id = some symbol →
      symbol.kind = .var .param ∨ symbol.kind = .var .receiver →
        (ofProgram program config).closure? call = none := by
  refine ⟨fun literal => closureOf?_eq_some_iff unique, fun passed last follows bad => ?_,
    fun passed last id symbol follows name known kind => ?_⟩ <;>
    refine Option.eq_none_iff_forall_ne_some.mpr fun literal found => ?_
  · obtain ⟨further, final, few, rest, closure⟩ := exists_rest_of_closure? unique found follows
    rcases bad with long | circle
    · have limit : maxRenames = 16 := rfl
      omega
    · exact circle (List.nodup_append.mp ((follows.append rest).nodup_of_closure unique closure)).1
  · obtain ⟨further, final, -, rest, closure⟩ := exists_rest_of_closure? unique found follows
    cases rest with
    | here => exact closure.not_isName id name
    | rename named bound _ =>
        cases name.eq named
        have other := bound.not_param known
        exact kind.elim other.1 other.2

/-- A function that is given another one. It binds `work` to a literal and `again` to `work`. -/
def renamed : Program :=
  ⟨[⟨0, "p.go", "p", ".", [],
    [.func ⟨⟨0, 0⟩, Sample.name 1 "F", none, [⟨[Sample.name 2 "given"], .func, false⟩], none,
      some ⟨[
        .assign ⟨0, 3⟩ [.ident (Sample.name 4 "work")]
          [.paren (.literal ⟨0, 5⟩ [] none [] .zero .zero) .zero] true .zero,
        .assign ⟨0, 6⟩ [.ident (Sample.name 7 "spare"), .ident (Sample.name 8 "again")]
          [.ident (Sample.name 9 "given"), .ident (Sample.name 10 "work")] true .zero,
        Sample.statement (Sample.plainCall 11 "again" []),
        Sample.statement (Sample.plainCall 13 "given" [])], .zero⟩, .zero⟩]⟩]⟩

theorem renamed_closures :
    renamed.UniqueIds ∧
      (∃ literal passed last, literal.id = ⟨0, 5⟩ ∧ passed.length ≤ 16 ∧
        renamed.Follows (Sample.plainCall 11 "again" []).callee passed last ∧
        last.IsClosure literal) ∧
      renamed.resolve.symbol? 66 = some ⟨"given", .var .param, 2, .func, none⟩ ∧
      (ofProgram renamed default).closure? (Sample.plainCall 13 "given" []) = none := by
  have unique : renamed.UniqueIds := by decide +kernel
  have found : ((ofProgram renamed default).closure? (Sample.plainCall 11 "again" [])).map
      Closure.id = some ⟨0, 5⟩ := by decide +kernel
  have given : renamed.resolve.symbol? 66 = some ⟨"given", .var .param, 2, .func, none⟩ := by
    decide +kernel
  have named : renamed.resolve.objectOf (Sample.name 14 "given") = some 66 := by decide +kernel
  obtain ⟨literal, found, number⟩ := Option.map_eq_some_iff.mp found
  obtain ⟨passed, last, reached⟩ := ((closure?_exact renamed default unique _).1 literal).mp found
  refine ⟨unique, ⟨literal, passed, last, number, reached⟩, given, ?_⟩
  exact (closure?_exact renamed default unique _).2.2 [] _ 66 _ (.here _) ⟨_, rfl, named⟩ given
    (.inl rfl)

end Subject

end Relock
