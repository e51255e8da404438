import Relock.Lock.Search

/-!
# The lock that a path denotes

An access path denotes an object in the environment of an activation: its root is a variable, and
each further step but the last, which is the operation, is a field. When a search enters a callee,
it spells the path anew. The object stays the same, if the environment of the callee gives to the
variable that is the new root the object that the caller reached by the steps it replaces.
-/

namespace Relock

/-- The objects that variables hold in an activation. -/
abbrev Environment (Object : Type) := SymbolId → Option Object

/-- The objects that the fields of objects hold. -/
abbrev Heap (Object : Type) := Object → SymbolId → Option Object

section Denotation

variable {Object : Type} (heap : Heap Object) (environment : Environment Object)

/-- The object to which steps lead: a variable and then fields. -/
def objectAt : List PathNode → Option Object
  | [] => none
  | root :: fields =>
      (environment root.symbol).bind
        (fields.foldlM fun object field => heap object field.symbol)

/-- The object that a path operates on: where its steps lead without the operation, unless that is
all there is. -/
def AccessPath.denote (path : AccessPath) : Option Object :=
  objectAt heap environment (path.root :: path.rest.dropLast)

theorem objectAt_append {front : List PathNode} (nonempty : front ≠ []) (fields : List PathNode) :
    objectAt heap environment (front ++ fields) =
      (objectAt heap environment front).bind
        (fields.foldlM fun object field => heap object field.symbol) := by
  cases front with
  | nil => exact absurd rfl nonempty
  | cons root steps =>
      simp only [List.cons_append, objectAt, List.foldlM_append, Option.bind_assoc]
      rfl

/-- Steps lead to the same object as others that refer to the same entities. -/
theorem objectAt_congr {left right : List PathNode}
    (symbols : left.map PathNode.symbol = right.map PathNode.symbol) :
    objectAt heap environment left = objectAt heap environment right := by
  have follow : ∀ steps : List PathNode,
      (steps.foldlM fun object field => heap object field.symbol) =
        fun object => (steps.map PathNode.symbol).foldlM heap object := by
    intro steps
    funext object
    rw [List.foldlM_map]
  cases left with
  | nil =>
      cases right with
      | nil => rfl
      | cons root fields => simp at symbols
  | cons root fields =>
      cases right with
      | nil => simp at symbols
      | cons other others =>
          obtain ⟨root_eq, fields_eq⟩ := List.cons.inj symbols
          simp only [objectAt, follow, root_eq, fields_eq]

end Denotation

namespace AccessPath

theorem map_symbol_take_of_agree {left right : List PathNode} (agreed : agree left right = true)
    (length_le : right.length ≤ left.length) :
    (left.take right.length).map PathNode.symbol = right.map PathNode.symbol := by
  induction right generalizing left with
  | nil => simp
  | cons node right ih =>
      cases left with
      | nil => simp at length_le
      | cons other left =>
          simp only [agree, List.zip_cons_cons, List.all_cons, Bool.and_eq_true] at agreed
          have same : other.symbol = node.symbol := by simpa [PathNode.same] using agreed.1
          simp only [List.length_cons, List.take_succ_cons, List.map_cons, same]
          rw [ih agreed.2 (by simpa using length_le)]

/-- The steps that are taken away refer to the same entities as the given ones, and all steps after
them are kept. -/
theorem stripFront_eq_some {path rest : AccessPath} {front : List PathNode}
    (stripped : path.stripFront front = some rest) :
    front ≠ [] ∧ front.length < path.nodes.length ∧
      (path.nodes.take front.length).map PathNode.symbol = front.map PathNode.symbol ∧
      rest.rest = path.nodes.drop front.length := by
  unfold stripFront at stripped
  split at stripped
  · cases stripped
  · rename_i usable
    simp only [Bool.or_eq_true, decide_eq_true_eq, Bool.not_eq_true', not_or, List.isEmpty_iff,
      Bool.not_eq_false] at usable
    obtain ⟨⟨nonempty, shorter⟩, starts⟩ := usable
    simp only [startsWith, Bool.and_eq_true, decide_eq_true_eq] at starts
    have length_pos : 0 < front.length := List.length_pos_iff.mpr nonempty
    refine ⟨nonempty, Nat.lt_of_not_le shorter, map_symbol_take_of_agree starts.2 starts.1, ?_⟩
    cases dropped : path.nodes.drop (front.length - 1) with
    | nil => simp [dropped, ofNodes?] at stripped
    | cons root steps =>
        simp only [dropped, ofNodes?, Option.some.injEq] at stripped
        subst stripped
        -- What is kept begins with the last of the given steps, as its root.
        have tail_eq := congrArg List.tail dropped
        rw [List.tail_drop, Nat.sub_add_cancel length_pos] at tail_eq
        exact tail_eq.symm

end AccessPath

/-- A path keeps its object when its first steps are replaced by a variable that holds the object to
which they lead. -/
theorem AccessPath.denote_withRoot {Object : Type} {heap : Heap Object}
    {caller callee : Environment Object} {path rest : AccessPath} {front : List PathNode}
    {root : PathNode} (stripped : path.stripFront front = some rest)
    (bound : callee root.symbol = objectAt heap caller front) :
    (rest.withRoot root).denote heap callee = path.denote heap caller := by
  obtain ⟨nonempty, shorter, symbols, rest_eq⟩ := stripFront_eq_some stripped
  have rest_ne : path.nodes.drop front.length ≠ [] := by
    rw [ne_eq, List.drop_eq_nil_iff]
    omega
  have taken_ne : path.nodes.take front.length ≠ [] := by
    simp [List.take_eq_nil_iff, nonempty, nodes]
  have path_rest_ne : path.rest ≠ [] := by
    intro empty
    have length_pos : 0 < front.length := List.length_pos_iff.mpr nonempty
    have length_eq : path.nodes.length = 1 := by rw [nodes, empty, List.length_singleton]
    omega
  -- The operation is among the steps that stay, so the path without it still begins with `front`.
  have nodes_eq : path.root :: path.rest.dropLast =
      path.nodes.take front.length ++ (path.nodes.drop front.length).dropLast := by
    rw [← List.dropLast_append_of_ne_nil rest_ne, List.take_append_drop]
    exact (List.dropLast_cons_of_ne_nil path_rest_ne).symm
  calc (rest.withRoot root).denote heap callee
      = (callee root.symbol).bind
          ((path.nodes.drop front.length).dropLast.foldlM fun object field =>
            heap object field.symbol) := by
        simp only [denote, withRoot, objectAt, rest_eq]
    _ = (objectAt heap caller (path.nodes.take front.length)).bind
          ((path.nodes.drop front.length).dropLast.foldlM fun object field =>
            heap object field.symbol) := by
        rw [bound, objectAt_congr heap caller symbols]
    _ = path.denote heap caller := by
        rw [denote, nodes_eq, objectAt_append heap caller taken_ne]

/-- How a lock is carried into a callee. -/
inductive Passage where
  /-- The callee is a closure and sees the variables of its surroundings. -/
  | closure
  /-- The callee has a variable, its receiver or a parameter, for the first steps of the path; what
  is left of the path is taken from there. -/
  | rerooted (front : List PathNode) (rest : AccessPath) (root : PathNode)
  /-- The root of the path is a variable of a package. -/
  | package

namespace Passage

/-- The path to a lock from inside the callee. -/
def path (lock : AccessPath) : Passage → AccessPath
  | closure | package => lock
  | rerooted _ rest root => rest.withRoot root

/-- The environment of the callee has what the passage needs of that of the caller. -/
def Binds {Object : Type} (heap : Heap Object) (caller callee : Environment Object) :
    Passage → Prop
  | closure => callee = caller
  | rerooted front _ root => callee root.symbol = objectAt heap caller front
  | package => True

end Passage

namespace Subject

variable (subject : Subject)

variable {lock : AccessPath} {passage : Passage} {call : Call}

/-- The entity is a variable of a package. -/
def isPackageVar (symbol : SymbolId) : Bool :=
  (subject.tables.symbol? symbol).any Symbol.isPackageVar

/-- The passage from first steps of the path to the variable that a name declares. -/
def passageTo? (front : List PathNode) (rest : AccessPath) (name : Ident) : Option Passage :=
  (subject.tables.objectOf name).map fun symbol => .rerooted front rest (.ofIdent name symbol)

/-- The passage through the receiver, for the steps of the call without the method. -/
def receiverPassage? (lock : AccessPath) (call : Call) (decl : FuncDecl) : Option Passage := do
  let name ← decl.receiver.bind Receiver.name
  let callPath ← subject.path? call
  subject.passageTo? callPath.nodes.dropLast (← lock.suffix callPath) name

/-- The passage through the first parameter whose argument is the beginning of the path. -/
def argumentPassage? (lock : AccessPath) (call : Call) (decl : FuncDecl) : Option Passage :=
  (call.args.zip (Param.idents decl.params)).findSome? fun (arg, param) => do
    let name ← param
    let argPath ← AccessPath.ofExpr? subject.tables arg.stripAddress
    subject.passageTo? argPath.nodes (← lock.stripFront argPath.nodes) name

/-- The passage of a path whose root is a variable of a package. -/
def packagePassage? (lock : AccessPath) : Option Passage :=
  if subject.isPackageVar lock.root.symbol then some .package else none

/-- The passage into a declaration. -/
def declarationPassage? (lock : AccessPath) (call : Call) (decl : FuncDecl) : Option Passage :=
  ((subject.receiverPassage? lock call decl).or
    (if subject.search.followArguments then subject.argumentPassage? lock call decl else none)).or
    (if subject.search.followPackageLocks then subject.packagePassage? lock else none)

/-- The passage by which a call is entered. -/
def passage? (lock : AccessPath) (call : Call) : Option Passage :=
  match subject.closure? call with
  | some _ => some .closure
  | none => do
      let callee ← subject.callee? call
      let decl ← subject.declaration? callee
      let _ ← decl.body
      subject.declarationPassage? lock call decl

variable {subject}

theorem map_path_passageTo? (lock rest : AccessPath) (front : List PathNode) (name : Ident) :
    (subject.passageTo? front rest name).map (Passage.path lock) = subject.reroot rest name := by
  simp only [passageTo?, reroot, Option.map_map]
  rfl

theorem map_path_receiverPassage? (lock : AccessPath) (call : Call) (decl : FuncDecl) :
    (subject.receiverPassage? lock call decl).map (Passage.path lock) =
      subject.carryReceiver lock call decl := by
  simp only [receiverPassage?, carryReceiver, Option.bind_eq_bind, Option.map_bind,
    Function.comp_def, map_path_passageTo?]

theorem map_path_argumentPassage? (lock : AccessPath) (call : Call) (decl : FuncDecl) :
    (subject.argumentPassage? lock call decl).map (Passage.path lock) =
      subject.carryArgument lock call decl := by
  simp only [argumentPassage?, carryArgument, Option.bind_eq_bind, List.map_findSome?,
    Option.map_bind, Function.comp_def, map_path_passageTo?]

theorem map_path_packagePassage? (lock : AccessPath) :
    (subject.packagePassage? lock).map (Passage.path lock) = subject.carryPackage lock := by
  unfold packagePassage? carryPackage isPackageVar
  split <;> rfl

theorem map_path_declarationPassage? (lock : AccessPath) (call : Call) (decl : FuncDecl) :
    (subject.declarationPassage? lock call decl).map (Passage.path lock) =
      subject.carry lock call decl := by
  simp only [declarationPassage?, carry, Option.map_or, map_path_receiverPassage?,
    apply_ite (Option.map (Passage.path lock)), map_path_argumentPassage?,
    map_path_packagePassage?, Option.map_none]

/-- Entering a call spells the path the way its passage says. -/
theorem map_path_passage? (lock : AccessPath) (call : Call) :
    (subject.passage? lock call).map (Passage.path lock) =
      (subject.enter lock call).map Frame.path := by
  unfold passage? enter
  cases subject.closure? call with
  | some literal => rfl
  | none =>
      simp only [enterDeclaration, Option.bind_eq_bind, Option.map_bind, Function.comp_def,
        map_path_declarationPassage?, Option.pure_def, Option.map_some,
        Option.bind_fun_some]

/-- The passage is one for the path: the path begins with the steps that are replaced, or its root
is a variable of a package. -/
def Fits (subject : Subject) (lock : AccessPath) : Passage → Prop
  | .closure => True
  | .rerooted front rest _ => lock.stripFront front = some rest
  | .package => subject.isPackageVar lock.root.symbol = true

theorem fits_of_passageTo? {rest : AccessPath} {front : List PathNode} {name : Ident}
    (stripped : lock.stripFront front = some rest)
    (passes : subject.passageTo? front rest name = some passage) : subject.Fits lock passage := by
  obtain ⟨symbol, -, rfl⟩ := Option.map_eq_some_iff.mp passes
  exact stripped

theorem fits_of_receiverPassage? {decl : FuncDecl}
    (passes : subject.receiverPassage? lock call decl = some passage) :
    subject.Fits lock passage := by
  simp only [receiverPassage?, Option.bind_eq_bind, Option.bind_eq_some_iff] at passes
  obtain ⟨name, -, callPath, -, rest, suffix_eq, passes⟩ := passes
  unfold AccessPath.suffix at suffix_eq
  split at suffix_eq
  · cases suffix_eq
  · exact fits_of_passageTo? suffix_eq passes

theorem fits_of_argumentPassage? {decl : FuncDecl}
    (passes : subject.argumentPassage? lock call decl = some passage) :
    subject.Fits lock passage := by
  obtain ⟨⟨arg, param⟩, -, passes⟩ := List.exists_of_findSome?_eq_some passes
  simp only [Option.bind_eq_bind, Option.bind_eq_some_iff] at passes
  obtain ⟨name, -, argPath, -, rest, stripped, passes⟩ := passes
  exact fits_of_passageTo? stripped passes

theorem fits_of_declarationPassage? {decl : FuncDecl}
    (passes : subject.declarationPassage? lock call decl = some passage) :
    subject.Fits lock passage := by
  unfold declarationPassage? at passes
  rcases Option.or_eq_some_iff.mp passes with passes | ⟨-, passes⟩
  · rcases Option.or_eq_some_iff.mp passes with passes | ⟨-, passes⟩
    · exact fits_of_receiverPassage? passes
    · split at passes
      · exact fits_of_argumentPassage? passes
      · cases passes
  · split at passes
    · unfold packagePassage? at passes
      split at passes
      · rename_i global
        cases passes
        exact global
      · cases passes
    · cases passes

theorem fits_of_passage?
    (passes : subject.passage? lock call = some passage) : subject.Fits lock passage := by
  unfold passage? at passes
  split at passes
  · cases passes
    trivial
  · simp only [Option.bind_eq_bind, Option.bind_eq_some_iff] at passes
    obtain ⟨callee, -, decl, -, body, -, passes⟩ := passes
    exact fits_of_declarationPassage? passes

section Descent

variable {Object : Type} {heap : Heap Object} {caller callee : Environment Object}

/-- Variables of packages hold the same objects in both environments. -/
def SharesPackages (subject : Subject) (caller callee : Environment Object) : Prop :=
  ∀ symbol, subject.isPackageVar symbol = true → callee symbol = caller symbol

/-- A path keeps its object in a passage that fits it. -/
theorem denote_path_of_fits (fits : subject.Fits lock passage)
    (binds : passage.Binds heap caller callee) (shares : subject.SharesPackages caller callee) :
    (passage.path lock).denote heap callee = lock.denote heap caller := by
  cases passage with
  | closure =>
      have same : callee = caller := binds
      rw [same]
      rfl
  | rerooted front rest root => exact AccessPath.denote_withRoot fits binds
  | package =>
      have root_eq : callee lock.root.symbol = caller lock.root.symbol := shares _ fits
      simp only [Passage.path, AccessPath.denote, objectAt, root_eq]

/-- Callees entered one from the other, the first from where the lock is held, each with its
environment. The environment of a callee has what its passage needs of that of its caller. -/
inductive Descent (subject : Subject) (heap : Heap Object) :
    AccessPath → Environment Object → List (Frame × Environment Object) → Prop
  | nil {lock : AccessPath} {caller : Environment Object} : Descent subject heap lock caller []
  | cons {lock : AccessPath} {caller callee : Environment Object} {call : Call} {frame : Frame}
      {deeper : List (Frame × Environment Object)}
      (entered : subject.enter lock call = some frame)
      (binds : ∀ passage, subject.passage? lock call = some passage →
        passage.Binds heap caller callee)
      (shares : subject.SharesPackages caller callee)
      (descent : Descent subject heap frame.path callee deeper) :
      Descent subject heap lock caller ((frame, callee) :: deeper)

theorem denote_of_enter {frame : Frame} (entered : subject.enter lock call = some frame)
    (binds : ∀ passage, subject.passage? lock call = some passage →
      passage.Binds heap caller callee) (shares : subject.SharesPackages caller callee) :
    frame.path.denote heap callee = lock.denote heap caller := by
  have path_eq : (subject.passage? lock call).map (Passage.path lock) = some frame.path := by
    rw [map_path_passage?, entered, Option.map_some]
  rw [Option.map_eq_some_iff] at path_eq
  obtain ⟨passage, passes, path_eq⟩ := path_eq
  rw [← path_eq]
  exact denote_path_of_fits (fits_of_passage? passes) (binds passage passes) shares

/-- However deep a search goes, the paths of its frames denote the object that the path to the lock
denotes where the lock is held. -/
theorem denote_path_of_descent {lock : AccessPath} {entries : List (Frame × Environment Object)}
    (descent : subject.Descent heap lock caller entries) {frame : Frame}
    {environment : Environment Object} (member : (frame, environment) ∈ entries) :
    frame.path.denote heap environment = lock.denote heap caller := by
  induction descent with
  | nil => cases member
  | cons entered binds shares descent ih =>
      have step := denote_of_enter entered binds shares
      rcases List.mem_cons.mp member with same | member
      · cases same
        exact step
      · exact (ih member).trans step

end Descent

section Handing

/-- A name in a file, by its number. -/
def nameAt (index : Nat) (name : String) : Ident := ⟨⟨0, index⟩, name, .zero⟩

/-- The call `g(s)`. -/
def handingCall : Call := ⟨⟨0, 13⟩, .ident (nameAt 14 "g"), [.ident (nameAt 15 "s")], .zero⟩

/-- The call `a.b.help()`. -/
def helpCall : Call :=
  ⟨⟨0, 6⟩, .selector ⟨0, 4⟩ (.selector ⟨0, 2⟩ (.ident (nameAt 1 "a")) (nameAt 3 "b") .zero)
    (nameAt 5 "help") .zero, [], .zero⟩

/-- A program with a method `help`, which hands its receiver to a function `g`. -/
def handing : Subject :=
  .ofTables
    ⟨[⟨0, "a.go", "main", ".", [],
      [.func ⟨⟨0, 10⟩, nameAt 11 "help", some ⟨some (nameAt 12 "s"), .pointer (.name "S")⟩, [], none,
        some ⟨[.expr (.call ⟨0, 13⟩ (.ident (nameAt 14 "g")) [.ident (nameAt 15 "s")] .zero)], .zero⟩,
        .zero⟩,
      .func ⟨⟨0, 20⟩, nameAt 21 "g", none, [⟨[nameAt 22 "x"], .pointer (.name "S"), false⟩], none,
        some ⟨[], .zero⟩, .zero⟩]⟩]⟩
    { symbols := #[⟨"a", .var .local, 0, .unknown, none⟩, ⟨"b", .field, 0, .unknown, none⟩,
        ⟨"mu", .field, 0, .unknown, none⟩, ⟨"RLock", .method .unknown, 1, .func, none⟩,
        ⟨"help", .method (.named ⟨0, "S"⟩), 0, .func, none⟩, ⟨"s", .var .receiver, 0, .unknown, none⟩,
        ⟨"g", .func, 0, .func, none⟩, ⟨"x", .var .param, 0, .unknown, none⟩]
      uses := Std.TreeMap.ofList [((⟨0, 1⟩ : NodeId), (0 : SymbolId)), (⟨0, 3⟩, 1), (⟨0, 5⟩, 4),
        (⟨0, 11⟩, 4), (⟨0, 12⟩, 5), (⟨0, 14⟩, 6), (⟨0, 15⟩, 5), (⟨0, 21⟩, 6), (⟨0, 22⟩, 7)]
      selections := Std.TreeMap.ofList [((⟨0, 2⟩ : NodeId), (1 : SymbolId)), (⟨0, 4⟩, 4)]
      receivers := Std.TreeMap.ofList [((⟨0, 10⟩ : NodeId), TypeRef.named ⟨0, "S"⟩)] }
    {}

/-- The path `a.b.mu.RLock`. -/
def handedLock : AccessPath :=
  ⟨⟨"a", 0, .zero⟩, [⟨"b", 1, .zero⟩, ⟨"mu", 2, .zero⟩, ⟨"RLock", 3, .zero⟩]⟩

/-- Object zero holds object one in `b`, which holds object two in `mu`. -/
def handingHeap : Heap Nat := fun object field =>
  if object = 0 ∧ field = 1 then some 1 else if object = 1 ∧ field = 2 then some 2 else none

/-- The environment in which only one variable is known. -/
def only (known : SymbolId) (object : Nat) : Environment Nat :=
  fun symbol => if symbol = known then some object else none

theorem handing_sharesPackages (caller callee : Environment Nat) :
    handing.SharesPackages caller callee := by
  intro symbol global
  have locals : ∀ entity ∈ handing.tables.symbols, entity.isPackageVar = false := by
    decide +kernel
  obtain ⟨entity, found, entity_global⟩ := (Option.any_eq_true _ _).mp global
  have entity_local := locals entity (Array.mem_of_getElem? found)
  simp [entity_local] at entity_global

/-- The function is entered through the method, each with the environment that it needs. -/
theorem handing_descent :
    ∃ method function, handing.Descent handingHeap handedLock (only 0 0)
        [(method, only 5 1), (function, only 7 1)] ∧
      method.path.describeTarget = "s.mu" ∧ function.path.describeTarget = "x.mu" := by
  refine ⟨_, _, @Descent.cons _ _ _ _ _ _ helpCall _ _ rfl ?_ (handing_sharesPackages _ _)
    (@Descent.cons _ _ _ _ _ _ handingCall _ _ rfl ?_ (handing_sharesPackages _ _) .nil), rfl, rfl⟩
  · intro passage passes
    cases passes
    rfl
  · intro passage passes
    cases passes
    rfl

/-- The lock `a.b.mu` is `s.mu` for the method that `a.b.help()` runs and `x.mu` for the function to
which the method hands its receiver. -/
theorem handing_denotes_one_lock :
    ∃ method function, handing.Descent handingHeap handedLock (only 0 0)
        [(method, only 5 1), (function, only 7 1)] ∧
      method.path.describeTarget = "s.mu" ∧ function.path.describeTarget = "x.mu" ∧
      handedLock.denote handingHeap (only 0 0) = some 2 ∧
      method.path.denote handingHeap (only 5 1) = handedLock.denote handingHeap (only 0 0) ∧
      function.path.denote handingHeap (only 7 1) =
        handedLock.denote handingHeap (only 0 0) := by
  obtain ⟨method, function, descent, method_path, function_path⟩ := handing_descent
  exact ⟨method, function, descent, method_path, function_path, rfl,
    denote_path_of_descent descent (.head _),
    denote_path_of_descent descent (.tail _ (.head _))⟩

end Handing

end Subject

end Relock
