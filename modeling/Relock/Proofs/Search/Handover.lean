import Relock.Proofs.Path.Symbols
import Relock.Proofs.Search.Chain
import Relock.Proofs.Search.Identity
import Relock.Proofs.Symbol.Route

/-!
# Objects handed to callees

A path leaves out the embedded fields that lead to promoted members. What it denotes is found by
following these fields as well. A call hands objects to the variables of its callee: to the receiver
the one that the method is selected from, which is an embedded object if the method is promoted, and
to the parameters those that the arguments denote.

The lock that a chain of calls acquires again is then the object to which some fields lead from the
root of the path to the lock that is held: at each call those that lead to the object from which the
callee reaches the lock, and at the end those of the path of the acquisition.
-/

namespace Relock

section Objects

variable {Object : Type}

/-- The object to which fields lead. -/
def Heap.follow (heap : Heap Object) (fields : List SymbolId) (object : Object) : Option Object :=
  fields.foldlM heap object

@[simp]
theorem Heap.follow_nil (heap : Heap Object) : Heap.follow heap [] = some := rfl

theorem Heap.bind_follow_append (heap : Heap Object) (object : Option Object)
    (front rest : List SymbolId) :
    object.bind (Heap.follow heap (front ++ rest)) =
      (object.bind (Heap.follow heap front)).bind (Heap.follow heap rest) := by
  rw [Option.bind_assoc]
  refine congrArg _ (funext fun start => ?_)
  simp only [Heap.follow, List.foldlM_append]
  rfl

namespace AccessPath

variable (tables : Tables) (heap : Heap Object) (environment : Environment Object)

/-- The object that a path leads to, through embedded fields where members are promoted. -/
def value (path : AccessPath) : Option Object :=
  (environment path.root.symbol).bind (Heap.follow heap (tables.fieldsTo path.symbols))

/-- The object that the last step of a path is taken from: the lock, if the step is an operation on
one, and the receiver, if it is a method. -/
def target (path : AccessPath) : Option Object :=
  (environment path.root.symbol).bind (Heap.follow heap (tables.fieldsBefore path.symbols))

theorem target_congr {left right : AccessPath} (same : left.symbols = right.symbols) :
    left.target tables heap environment = right.target tables heap environment := by
  have root_eq : left.root.symbol = right.root.symbol := (List.cons.inj same).1
  rw [target, target, root_eq, same]

/-- A path that begins with steps of another one has its root. -/
theorem root_symbol_of_stripFront {path rest other : AccessPath} {front : List PathNode}
    (begins : front <+: other.nodes) (stripped : path.stripFront front = some rest) :
    path.root.symbol = other.root.symbol := by
  obtain ⟨nonempty, -, symbols, -⟩ := stripFront_eq_some stripped
  obtain ⟨root, front, rfl⟩ := List.exists_cons_of_ne_nil nonempty
  have same : root = other.root := (List.cons_prefix_cons.mp begins).1
  rw [← same]
  exact (List.cons.inj symbols).1

/-- The steps of a path after its root, but for the operation, are those that are taken away and
those that stay. -/
theorem tail_symbols_of_stripFront {path rest : AccessPath} {front : List PathNode}
    (stripped : path.stripFront front = some rest) :
    path.symbols.tail.dropLast =
      (front.map PathNode.symbol).tail ++ rest.symbols.tail.dropLast := by
  obtain ⟨nonempty, shorter, symbols, rest_eq⟩ := stripFront_eq_some stripped
  have stays : rest.symbols.tail ≠ [] := by
    simp only [AccessPath.symbols, nodes, List.map_cons, List.tail_cons, rest_eq, ne_eq,
      List.map_eq_nil_iff, List.drop_eq_nil_iff]
    simpa [nodes] using shorter
  have split : path.symbols = front.map PathNode.symbol ++ rest.symbols.tail := by
    rw [← symbols]
    simp only [AccessPath.symbols, nodes, List.map_cons, List.tail_cons, rest_eq]
    rw [← List.map_append, List.take_append_drop]
    rfl
  rw [split, List.tail_append_of_ne_nil (by simpa using nonempty),
    List.dropLast_append_of_ne_nil stays]

end AccessPath

/-! ## Calls -/

namespace Subject

variable (subject : Subject) {call last : Call} {decl : FuncDecl} {name : Ident} {symbol : SymbolId}
  {path lock : AccessPath} {frame : Frame} {positions : List Nat} {frames : List Frame}

/-- The variables of a declaration: its receiver and its parameters. -/
def ownVariables (decl : FuncDecl) : List SymbolId :=
  ((decl.receiver.bind Receiver.name).bind subject.tables.objectOf).toList ++
    (Param.idents decl.params).filterMap fun param => param.bind subject.tables.objectOf

/-- What a call hands to the receiver of its callee: the object that the method is selected from,
after all embedded fields. -/
def handedReceiver? (heap : Heap Object) (caller : Environment Object) (call : Call)
    (decl : FuncDecl) : Option (SymbolId × Option Object) := do
  let symbol ← (decl.receiver.bind Receiver.name).bind subject.tables.objectOf
  let path ← subject.path? call
  return (symbol, path.target subject.tables heap caller)

/-- What a call hands to a parameter of its callee, if the argument is a path. -/
def handedArgument? (heap : Heap Object) (caller : Environment Object) (arg : Expr)
    (param : Option Ident) : Option (SymbolId × Option Object) := do
  let symbol ← param.bind subject.tables.objectOf
  let path ← AccessPath.ofExpr? subject.tables arg.stripAddress
  return (symbol, path.value subject.tables heap caller)

/-- The variables of a callee with the objects that a call hands to them. -/
def handed (heap : Heap Object) (caller : Environment Object) (call : Call) (decl : FuncDecl) :
    List (SymbolId × Option Object) :=
  (subject.handedReceiver? heap caller call decl).toList ++
    (call.args.zip (Param.idents decl.params)).filterMap fun (arg, param) =>
      subject.handedArgument? heap caller arg param

/-- The environment in which a call runs its callee. A closure has that of its surroundings; any
other callee has the objects that are handed to it, and the variables of packages. -/
def Conveys (heap : Heap Object) (caller callee : Environment Object) (call : Call) : Prop :=
  match subject.closure? call with
  | some _ => callee = caller
  | none =>
      subject.SharesPackages caller callee ∧
        ∀ decl, (subject.callee? call).bind subject.declaration? = some decl →
          ∀ binding ∈ subject.handed heap caller call decl, callee binding.1 = binding.2

/-- The environments of the calls of a chain, from that of its first frame to that of the frame
which acquires the lock again. -/
inductive Course (heap : Heap Object) :
    Environment Object → Frame → List Nat → Environment Object → Prop
  | here {environment : Environment Object} {frame : Frame} {position : Nat} :
      Course heap environment frame [position] environment
  | through {caller callee final : Environment Object} {frame inner : Frame} {position : Nat}
      {call : Call} {positions : List Nat} (at_position : frame.calls[position]? = some call)
      (entered : subject.enter frame.path call = some inner)
      (conveys : subject.Conveys heap caller callee call)
      (rest : Course heap callee inner positions final) :
      Course heap caller frame (position :: positions) final

/-! ## Ways -/

/-- The fields that lead to the receiver of a callee, if the lock is reached through it. -/
def receiverFields? (lock : AccessPath) (call : Call) (decl : FuncDecl) :
    Option (List SymbolId) := do
  let _ ← subject.receiverPassage? lock call decl
  let path ← subject.path? call
  return subject.tables.fieldsBefore path.symbols

/-- The fields that lead to the argument through which the lock is reached. -/
def argumentFields? (lock : AccessPath) (call : Call) (decl : FuncDecl) :
    Option (List SymbolId) := do
  match ← subject.argumentPassage? lock call decl with
  | .rerooted front _ _ => return subject.tables.fieldsTo (front.map PathNode.symbol)
  | _ => none

/-- No fields lead to a variable of a package. -/
def packageFields? (lock : AccessPath) : Option (List SymbolId) :=
  (subject.packagePassage? lock).map fun _ => []

/-- The fields that lead to the object from which a declaration reaches the lock. -/
def declarationFields? (lock : AccessPath) (call : Call) (decl : FuncDecl) :
    Option (List SymbolId) :=
  ((subject.receiverFields? lock call decl).or
    (if subject.search.followArguments then subject.argumentFields? lock call decl else none)).or
    (if subject.search.followPackageLocks then subject.packageFields? lock else none)

/-- The fields that lead a caller, from the root of the path to the lock, to the object from which
its callee reaches the lock. -/
def handedFields (lock : AccessPath) (call : Call) : List SymbolId :=
  match subject.closure? call with
  | some _ => []
  | none =>
      (((subject.callee? call).bind subject.declaration?).bind
        (subject.declarationFields? lock call)).getD []

/-- The fields that lead through the calls of a chain, from the root of the path of its first frame
to the lock that is acquired again. -/
def way : Frame → List Nat → List SymbolId
  | frame, position :: second :: positions =>
      match frame.calls[position]? with
      | none => []
      | some call =>
          subject.handedFields frame.path call ++
            match subject.enter frame.path call with
            | none => []
            | some inner => way inner (second :: positions)
  | frame, _ => subject.tables.fieldsBefore frame.path.symbols

variable {subject} {heap : Heap Object} {caller callee : Environment Object}

theorem mem_handed_of_receiver (named : decl.receiver.bind Receiver.name = some name)
    (object : subject.tables.objectOf name = some symbol)
    (spelled : subject.path? call = some path) :
    (symbol, path.target subject.tables heap caller) ∈ subject.handed heap caller call decl := by
  have receiver : subject.handedReceiver? heap caller call decl =
      some (symbol, path.target subject.tables heap caller) := by
    simp [handedReceiver?, named, object, spelled]
  simp [handed, receiver]

theorem mem_handed_of_argument {arg : Expr}
    (member : (arg, some name) ∈ call.args.zip (Param.idents decl.params))
    (object : subject.tables.objectOf name = some symbol)
    (spelled : AccessPath.ofExpr? subject.tables arg.stripAddress = some path) :
    (symbol, path.value subject.tables heap caller) ∈ subject.handed heap caller call decl := by
  refine List.mem_append_right _ (List.mem_filterMap.mpr ⟨_, member, ?_⟩)
  simp [handedArgument?, object, spelled]

/-- How a lock is carried into a callee: the path to the lock there, and the fields that lead the
caller to the object from which that path starts. -/
inductive Carrying (subject : Subject) (lock : AccessPath) (call : Call) :
    AccessPath → List SymbolId → Prop
  | closure {literal : Closure} (runs : subject.closure? call = some literal) :
      Carrying subject lock call lock []
  | receiver {decl : FuncDecl} {name : Ident} {symbol : SymbolId} {callPath rest : AccessPath}
      (plain : subject.closure? call = none)
      (declared : (subject.callee? call).bind subject.declaration? = some decl)
      (named : decl.receiver.bind Receiver.name = some name)
      (object : subject.tables.objectOf name = some symbol)
      (spelled : subject.path? call = some callPath)
      (stripped : lock.stripFront callPath.nodes.dropLast = some rest) :
      Carrying subject lock call (rest.withRoot (.ofIdent name symbol))
        (subject.tables.fieldsBefore callPath.symbols)
  | argument {decl : FuncDecl} {arg : Expr} {name : Ident} {symbol : SymbolId}
      {argPath rest : AccessPath} (plain : subject.closure? call = none)
      (declared : (subject.callee? call).bind subject.declaration? = some decl)
      (member : (arg, some name) ∈ call.args.zip (Param.idents decl.params))
      (object : subject.tables.objectOf name = some symbol)
      (spelled : AccessPath.ofExpr? subject.tables arg.stripAddress = some argPath)
      (stripped : lock.stripFront argPath.nodes = some rest) :
      Carrying subject lock call (rest.withRoot (.ofIdent name symbol))
        (subject.tables.fieldsTo argPath.symbols)
  | package (plain : subject.closure? call = none)
      (shared : subject.isPackageVar lock.root.symbol = true) : Carrying subject lock call lock []

/-- Fields lead to where a passage starts: there are some exactly if there is a passage. -/
structure Matches (subject : Subject) (lock : AccessPath) (call : Call) (passage : Option Passage)
    (fields : Option (List SymbolId)) : Prop where
  of_some : ∀ taken, passage = some taken →
    ∃ handed, fields = some handed ∧ subject.Carrying lock call (taken.path lock) handed
  of_none : passage = none → fields = none

section Matching

variable {lock : AccessPath} {call : Call} {first second : Option Passage}
  {firstFields secondFields : Option (List SymbolId)}

theorem Matches.or (left : subject.Matches lock call first firstFields)
    (right : subject.Matches lock call second secondFields) :
    subject.Matches lock call (first.or second) (firstFields.or secondFields) := by
  cases first with
  | some passage =>
      obtain ⟨handed, fields_eq, carrying⟩ := left.of_some passage rfl
      rw [fields_eq]
      exact ⟨fun taken same => ⟨handed, rfl, Option.some.inj same ▸ carrying⟩, nofun⟩
  | none =>
      rw [left.of_none rfl, Option.none_or, Option.none_or]
      exact right

theorem Matches.ite (left : subject.Matches lock call first firstFields) (allowed : Bool) :
    subject.Matches lock call (if allowed then first else none)
      (if allowed then firstFields else none) := by
  cases allowed with
  | true => exact left
  | false => exact ⟨nofun, fun _ => rfl⟩

variable {decl : FuncDecl} (plain : subject.closure? call = none)

include plain

theorem matches_packagePassage? :
    subject.Matches lock call (subject.packagePassage? lock) (subject.packageFields? lock) := by
  unfold packageFields? packagePassage?
  split
  · rename_i shared
    exact ⟨fun taken same => ⟨[], rfl, Option.some.inj same ▸ .package plain shared⟩, nofun⟩
  · exact ⟨nofun, fun _ => rfl⟩

variable (declared : (subject.callee? call).bind subject.declaration? = some decl)

include declared

theorem matches_receiverPassage? :
    subject.Matches lock call (subject.receiverPassage? lock call decl)
      (subject.receiverFields? lock call decl) where
  of_none nothing := by simp [receiverFields?, nothing]
  of_some := by
    intro taken passes
    have passed := passes
    simp only [receiverPassage?, Option.bind_eq_bind, Option.bind_eq_some_iff] at passes
    obtain ⟨name, named, callPath, spelled, rest, suffix_eq, passes⟩ := passes
    obtain ⟨symbol, object, rfl⟩ := Option.map_eq_some_iff.mp passes
    refine ⟨subject.tables.fieldsBefore callPath.symbols, ?_, ?_⟩
    · simp [receiverFields?, passed, spelled]
    · unfold AccessPath.suffix at suffix_eq
      split at suffix_eq
      · cases suffix_eq
      · exact .receiver plain declared (Option.bind_eq_some_iff.mpr named) object spelled suffix_eq

theorem matches_argumentPassage? :
    subject.Matches lock call (subject.argumentPassage? lock call decl)
      (subject.argumentFields? lock call decl) where
  of_none nothing := by simp [argumentFields?, nothing]
  of_some := by
    intro taken passes
    obtain ⟨⟨arg, param⟩, member, found⟩ := List.exists_of_findSome?_eq_some passes
    simp only [Option.bind_eq_bind, Option.bind_eq_some_iff] at found
    obtain ⟨name, rfl, argPath, spelled, rest, stripped, found⟩ := found
    obtain ⟨symbol, object, rfl⟩ := Option.map_eq_some_iff.mp found
    refine ⟨subject.tables.fieldsTo argPath.symbols, ?_,
      .argument plain declared member object spelled stripped⟩
    simp [argumentFields?, passes, AccessPath.symbols]

theorem matches_declarationPassage? :
    subject.Matches lock call (subject.declarationPassage? lock call decl)
      (subject.declarationFields? lock call decl) :=
  ((matches_receiverPassage? plain declared).or
    ((matches_argumentPassage? plain declared).ite _)).or ((matches_packagePassage? plain).ite _)

end Matching

/-- The path of a frame that is entered, and the fields that lead to its root. -/
theorem carrying_of_enter (entered : subject.enter lock call = some frame) :
    subject.Carrying lock call frame.path (subject.handedFields lock call) := by
  have path_eq : (subject.passage? lock call).map (Passage.path lock) = some frame.path := by
    rw [map_path_passage?, entered, Option.map_some]
  obtain ⟨passage, passes, path_eq⟩ := Option.map_eq_some_iff.mp path_eq
  rw [← path_eq]
  unfold passage? at passes
  cases plain : subject.closure? call with
  | some literal =>
      simp only [plain, Option.some.injEq] at passes
      subst passes
      simp only [handedFields, plain]
      exact .closure plain
  | none =>
      simp only [plain, Option.bind_eq_bind, Option.bind_eq_some_iff] at passes
      obtain ⟨target, called, decl, found, body, -, passes⟩ := passes
      have declared : (subject.callee? call).bind subject.declaration? = some decl := by
        rw [called, Option.bind_some, found]
      obtain ⟨handed, fields_eq, carrying⟩ :=
        (matches_declarationPassage? plain declared).of_some passage passes
      simp only [handedFields, plain, declared, Option.bind_some, fields_eq, Option.getD_some]
      exact carrying

/-- The object from which a callee reaches the lock is the one to which the fields lead the
caller. -/
theorem Carrying.root {fields : List SymbolId} (carrying : subject.Carrying lock call path fields)
    (conveys : subject.Conveys heap caller callee call) :
    callee path.root.symbol = (caller lock.root.symbol).bind (Heap.follow heap fields) := by
  unfold Conveys at conveys
  cases carrying with
  | closure runs =>
      simp only [runs] at conveys
      rw [conveys, Heap.follow_nil, Option.bind_fun_some]
  | package plain shared =>
      simp only [plain] at conveys
      rw [conveys.1 _ shared, Heap.follow_nil, Option.bind_fun_some]
  | @receiver decl name symbol callPath rest plain declared named object spelled stripped =>
      simp only [plain] at conveys
      have bound := conveys.2 decl declared _ (mem_handed_of_receiver named object spelled)
      rw [AccessPath.root_symbol_of_stripFront (List.dropLast_prefix callPath.nodes) stripped]
      exact bound
  | @argument decl arg name symbol argPath rest plain declared member object spelled stripped =>
      simp only [plain] at conveys
      have bound := conveys.2 decl declared _ (mem_handed_of_argument member object spelled)
      rw [AccessPath.root_symbol_of_stripFront List.prefix_rfl stripped]
      exact bound

theorem way_singleton (frame : Frame) (position : Nat) :
    subject.way frame [position] = subject.tables.fieldsBefore frame.path.symbols := rfl

theorem way_of_through {inner : Frame} {position : Nat}
    (at_position : frame.calls[position]? = some call)
    (entered : subject.enter frame.path call = some inner)
    (rest : subject.Chain inner positions frames last) :
    subject.way frame (position :: positions) =
      subject.handedFields frame.path call ++ subject.way inner positions := by
  obtain ⟨second, later, rfl⟩ := List.exists_cons_of_ne_nil rest.positions_ne_nil
  simp only [way, at_position, entered]

/-- The lock that a chain acquires again is the object to which its way leads from the root of the
path of its first frame. -/
theorem target_of_course {environment final : Environment Object}
    (chain : subject.Chain frame positions frames last)
    (course : subject.Course heap environment frame positions final)
    (spelled : subject.path? last = some path) :
    path.target subject.tables heap final =
      (environment frame.path.root.symbol).bind
        (Heap.follow heap (subject.way frame positions)) := by
  induction chain generalizing environment with
  | @here frame position call at_position acquires =>
      cases course with
      | here =>
          have same : path.equal frame.path 0 = true := by
            simpa [repeats, spelled] using acquires
          rw [AccessPath.target_congr _ _ _ (AccessPath.equal_zero_iff.mp same), way_singleton]
          rfl
      | through _ _ _ rest => cases rest
  | @through frame inner position call last positions frames at_position keeps entered rest ih =>
      cases course with
      | here => cases rest
      | @through _ callee _ _ other _ entry _ at_entry enters conveys deeper =>
          cases at_position.symm.trans at_entry
          cases entered.symm.trans enters
          rw [ih deeper spelled, (carrying_of_enter entered).root conveys,
            way_of_through at_position entered rest, Heap.bind_follow_append]

/-! ## Environments that exist -/

/-- The variables of every declaration are different from each other and from those of packages. -/
def VariablesApart (subject : Subject) : Prop :=
  ∀ decl ∈ subject.program.functions, (subject.ownVariables decl).Nodup ∧
    ∀ symbol ∈ subject.ownVariables decl, subject.isPackageVar symbol = false

theorem map_fst_handedArguments_sublist (args : List Expr) (params : List (Option Ident)) :
    (((args.zip params).filterMap fun (arg, param) =>
        subject.handedArgument? heap caller arg param).map Prod.fst).Sublist
      (params.filterMap fun param => param.bind subject.tables.objectOf) := by
  induction args generalizing params with
  | nil => exact List.nil_sublist _
  | cons arg args ih =>
      cases params with
      | nil => exact List.nil_sublist _
      | cons param params =>
          rw [List.zip_cons_cons, List.filterMap_cons, List.filterMap_cons]
          cases object : param.bind subject.tables.objectOf with
          | none => simpa [handedArgument?, object] using ih params
          | some symbol =>
              cases spelled : AccessPath.ofExpr? subject.tables arg.stripAddress with
              | none => simpa [handedArgument?, object, spelled] using (ih params).cons symbol
              | some path =>
                  simpa [handedArgument?, object, spelled] using (ih params).cons_cons symbol

theorem map_fst_handed_sublist (call : Call) (decl : FuncDecl) :
    ((subject.handed heap caller call decl).map Prod.fst).Sublist (subject.ownVariables decl) := by
  have receiver : ((subject.handedReceiver? heap caller call decl).toList.map Prod.fst).Sublist
      ((decl.receiver.bind Receiver.name).bind subject.tables.objectOf).toList := by
    unfold handedReceiver?
    cases (decl.receiver.bind Receiver.name).bind subject.tables.objectOf <;>
      cases subject.path? call <;> simp
  rw [handed, List.map_append]
  exact receiver.append (map_fst_handedArguments_sublist _ _)

theorem exists_environment {bindings : List (SymbolId × Option Object)}
    (distinct : (bindings.map Prod.fst).Nodup)
    (own : ∀ symbol ∈ bindings.map Prod.fst, subject.isPackageVar symbol = false)
    (caller : Environment Object) :
    ∃ callee, subject.SharesPackages caller callee ∧
      ∀ binding ∈ bindings, callee binding.1 = binding.2 := by
  refine ⟨fun symbol => if subject.isPackageVar symbol then caller symbol else
    (bindings.find? fun binding => binding.1 == symbol).bind Prod.snd,
    fun symbol shared => if_pos shared, ?_⟩
  intro binding member
  have private_var := own binding.1 (List.mem_map_of_mem member)
  have exists_found : (bindings.find? fun other => other.1 == binding.1).isSome = true :=
    List.find?_isSome.mpr ⟨binding, member, beq_self_eq_true _⟩
  obtain ⟨found, found_eq⟩ := Option.isSome_iff_exists.mp exists_found
  have symbol_eq : found.1 = binding.1 := by simpa using List.find?_some found_eq
  have same : found = binding :=
    List.inj_on_of_nodup_map distinct (List.mem_of_find?_eq_some found_eq) member symbol_eq
  simp only [private_var, Bool.false_eq_true, if_false, found_eq, Option.bind_some, same]

/-- Whatever a call hands over, there is an environment in which it runs its callee. -/
theorem exists_conveys (apart : subject.VariablesApart) (heap : Heap Object)
    (caller : Environment Object) (call : Call) :
    ∃ callee, subject.Conveys heap caller callee call := by
  unfold Conveys
  cases subject.closure? call with
  | some literal => exact ⟨caller, rfl⟩
  | none =>
      cases declared : (subject.callee? call).bind subject.declaration? with
      | none => exact ⟨caller, fun _ _ => rfl, fun decl impossible => nomatch impossible⟩
      | some decl =>
          obtain ⟨target, -, found⟩ := Option.bind_eq_some_iff.mp declared
          obtain ⟨distinct, own⟩ := apart decl (declaration?_spec found).1
          have keys : ((subject.handed heap caller call decl).map Prod.fst).Sublist
              (subject.ownVariables decl) := map_fst_handed_sublist call decl
          obtain ⟨callee, shares, bound⟩ := exists_environment (distinct.sublist keys)
            (fun symbol member => own symbol (keys.subset member)) caller
          refine ⟨callee, shares, ?_⟩
          intro other same
          cases same
          exact bound

theorem exists_course (apart : subject.VariablesApart) (heap : Heap Object)
    (environment : Environment Object) (chain : subject.Chain frame positions frames last) :
    ∃ final, subject.Course heap environment frame positions final := by
  induction chain generalizing environment with
  | here _ _ => exact ⟨environment, .here⟩
  | @through frame inner position call last positions frames at_position keeps entered rest ih =>
      obtain ⟨callee, conveys⟩ := exists_conveys apart heap environment call
      obtain ⟨final, course⟩ := ih callee
      exact ⟨final, .through at_position entered conveys course⟩

end Subject

end Objects

end Relock
