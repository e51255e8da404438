import Relock.Proofs.Program.Parts
import Relock.Proofs.Renaming.Callee
import Relock.Proofs.Resolution.Records
import Relock.Proofs.Search.Steps

/-!
# Searches in lockstep

Two subjects correspond when their tables match and the tables by which analysis finds declarations
and bindings correspond as well. Then a call of the one runs what the corresponding call of the other
runs, and two searches that begin with corresponding calls take corresponding steps, so that they
give the same answer.
-/

namespace Relock

namespace Expr

theorem stripAddress_renumber (file : Nat → Nat) (expr : Expr) :
    (expr.renumber file).stripAddress = expr.stripAddress.renumber file := by
  rw [stripAddress, stripAddress, unparen_renumber]
  cases expr.unparen with
  | unary operator operand span =>
      by_cases address : operator = "&"
      · simp [address, renumber, unparen_renumber]
      · simp [address, renumber]
  | _ => simp [renumber]

theorem marks_stripAddress (expr : Expr) : expr.stripAddress.marks = expr.marks := by
  rw [stripAddress, ← expr.marks_unparen]
  split
  · rename_i operand _ unary
    rw [unary, operand.marks_unparen, marks]
  · rfl

end Expr

namespace Subject

/-- A search may have a frame for the callee: it is a closure literal of the program, or calls of the
program have it and it has a declaration. -/
def Enterable (subject : Subject) (callee : Callee) : Prop :=
  (∃ call, .call call ∈ subject.program.nodes ∧ subject.callee? call = some callee ∧
    (subject.declaration? callee).isSome = true) ∨
  ∃ literal, .closure literal ∈ subject.program.nodes ∧ callee = .ofClosure literal

/-- The subjects are the same up to the numbers of files, packages and entities, as far as the first
one goes. -/
structure Corresponds (moved : Renaming) (view : View) (left right : Subject) : Prop where
  tables : left.tables.Matches moved view right.tables
  full : view.Full
  typed : ∀ id, view.typed id
  seen : ∀ mark ∈ left.program.marks, view.node mark.id
  lock : right.lock = left.lock
  search : right.search = left.search
  place : ∀ mark ∈ left.program.marks,
    right.program.pathOf (mark.id.renumber moved.file) = left.program.pathOf mark.id
  reassigned : ∀ id node, left.tables.declOf? id = some node →
    right.isReassigned (moved.symbol id) = left.isReassigned id
  binding : ∀ id node, left.tables.declOf? id = some node →
    right.index.bindings[node.renumber moved.file]? =
      left.index.bindings[node]?.map (Binding.renumber moved.file)
  declaration : ∀ call callee, .call call ∈ left.program.nodes →
    left.callee? call = some callee → right.declaration? (callee.rename moved) =
      (left.declaration? callee).map (FuncDecl.renumber moved.file)
  /-- Keys tell callees apart in both. -/
  keys : ∀ callee other, left.Enterable callee → left.Enterable other →
    (callee.key = other.key ↔ (callee.rename moved).key = (other.rename moved).key)

/-- The value to which a variable is bound for good stands in the program. -/
theorem marks_of_boundValue? {subject : Subject} {ident : Ident} {value : Expr}
    (bound : subject.boundValue? ident = some value) : value.marks ⊆ subject.program.marks := by
  unfold boundValue? at bound
  simp only [Option.bind_eq_bind, Option.bind_eq_some_iff] at bound
  obtain ⟨symbol, -, bound⟩ := bound
  split at bound
  · cases bound
  · obtain ⟨id, -, bound⟩ := Option.bind_eq_some_iff.mp bound
    obtain ⟨binding, found, bound⟩ := Option.bind_eq_some_iff.mp bound
    split at bound
    · obtain ⟨position, -, given⟩ := Option.bind_eq_some_iff.mp bound
      rw [subject.index_eq] at found
      exact List.Subset.trans (Binding.marks_of_value (List.mem_of_getElem? given))
        (Program.marks_of_binding (subject.program.mem_bindings_of_bindingTable found))
    · cases bound

namespace Corresponds

variable {moved : Renaming} {view : View} {left right : Subject}
  (same : left.Corresponds moved view right)
include same

/-! ## Calls -/

section Calls

variable {call : Call} (site : .call call ∈ left.program.nodes)
include site

theorem seen_call {mark : Mark} (marked : mark ∈ call.marks) : view.node mark.id :=
  same.seen mark (Program.marks_of_site site marked)

theorem callee?_eq : right.callee? (call.renumber moved.file) =
    (left.callee? call).map (Callee.rename moved) :=
  same.tables.callee_eq same.full same.typed fun _ marked =>
    same.seen_call site (by simp [Call.marks, marked])

theorem path?_eq : right.path? (call.renumber moved.file) =
    (left.path? call).map (AccessPath.rename moved) :=
  same.tables.path_eq fun _ marked => same.seen_call site (by simp [Call.marks, marked])

theorem acquires_eq : right.acquires (call.renumber moved.file) = left.acquires call := by
  rw [acquires, acquires, same.callee?_eq site]
  cases left.callee? call with
  | none => rfl
  | some callee => simp [isAcquire, same.lock]

theorem releases_eq : right.releases (call.renumber moved.file) = left.releases call := by
  rw [releases, releases, same.callee?_eq site]
  cases left.callee? call with
  | none => rfl
  | some callee => simp [isRelease, same.lock]

theorem location_eq : right.location (call.renumber moved.file) = left.location call := by
  have marked : ⟨call.id, .construct⟩ ∈ call.marks := List.mem_cons_self
  have place := same.place _ (Program.marks_of_site site marked)
  exact congrArg (SourceLocation.ofSpan · call.span) place

theorem repeats_eq (path : AccessPath) :
    right.repeats (path.rename moved) (call.renumber moved.file) = left.repeats path call := by
  rw [repeats, repeats, same.path?_eq site]
  cases left.path? call with
  | none => rfl
  | some own => exact own.equal_rename moved path 0

theorem acquisitionFrame_eq :
    right.acquisitionFrame (call.renumber moved.file) = left.acquisitionFrame call := by
  rw [acquisitionFrame, acquisitionFrame, same.callee?_eq site, same.path?_eq site,
    same.location_eq site]
  cases left.callee? call with
  | some callee => simp
  | none =>
      cases left.path? call with
      | none => rfl
      | some path => simp [path.last_rename moved, PathNode.rename]

end Calls

/-! ## Closures -/

theorem declOf?_eq (id : SymbolId) : right.tables.declOf? (moved.symbol id) =
    (left.tables.declOf? id).map (NodeId.renumber moved.file) := by
  rw [Tables.declOf?, Tables.declOf?, same.tables.symbol?_eq (same.typed id)]
  cases left.tables.symbol? id <;> rfl

/-- The names of a binding stand for corresponding variables. -/
theorem findIdx?_eq {binding : Binding} (listed : binding ∈ left.program.bindings)
    (symbol : SymbolId) :
    ((binding.renumber moved.file).names.findIdx? fun name =>
        name.bind right.tables.objectOf == some (moved.symbol symbol)) =
      binding.names.findIdx? fun name => name.bind left.tables.objectOf == some symbol := by
  have each (name : Option Ident) (named : name ∈ binding.names) :
      ((name.map (Ident.renumber moved.file)).bind right.tables.objectOf ==
        some (moved.symbol symbol)) = (name.bind left.tables.objectOf == some symbol) := by
    cases name with
    | none => rfl
    | some ident =>
        have here := same.tables.objectOf_eq
          (same.seen _ (Program.marks_of_binding listed (Binding.mark_of_name named)))
        rw [Option.map_some, Option.bind_some, Option.bind_some, here]
        cases left.tables.objectOf ident with
        | none => rfl
        | some other => simp [moved.symbol_injective.eq_iff]
  have texts := congrArg (List.findIdx? id) (List.map_congr_left each)
  rw [List.findIdx?_map, List.findIdx?_map] at texts
  rw [Binding.names_renumber, List.findIdx?_map]
  exact texts

theorem boundValue?_eq {ident : Ident} (seen : view.node ident.id) :
    right.boundValue? (ident.renumber moved.file) =
      (left.boundValue? ident).map (Expr.renumber moved.file) := by
  rw [boundValue?, boundValue?, same.tables.objectOf_eq seen]
  cases left.tables.objectOf ident with
  | none => rfl
  | some symbol =>
      have decl := same.declOf?_eq symbol
      rw [Tables.declOf?, Tables.declOf?] at decl
      simp only [Option.map_some, Option.bind_eq_bind, Option.bind_some, decl]
      cases declared : (left.tables.symbol? symbol).bind Symbol.decl with
      | none => simp
      | some node =>
          rw [same.reassigned symbol node declared]
          simp only [Option.map_some, Option.bind_some, same.binding symbol node declared]
          cases found : left.index.bindings[node]? with
          | none => simp
          | some binding =>
              have listed : binding ∈ left.program.bindings := by
                rw [left.index_eq] at found
                exact left.program.mem_bindings_of_bindingTable found
              have lengths : (binding.renumber moved.file).names.length =
                  (binding.renumber moved.file).values.length ↔
                    binding.names.length = binding.values.length := by
                rw [Binding.names_renumber, Binding.values_renumber, List.length_map,
                  List.length_map]
              simp only [Option.map_some, Option.bind_some, same.findIdx?_eq listed symbol]
              split
              · rfl
              · by_cases balanced : binding.names.length = binding.values.length
                · rw [if_pos balanced, if_pos (lengths.mpr balanced), Option.map_bind]
                  congr 1
                  funext position
                  rw [Binding.values_renumber, List.getElem?_map]
                  rfl
                · rw [if_neg balanced, if_neg (balanced ∘ lengths.mp)]
                  rfl

theorem closureOf?_eq (renames : Nat) {expr : Expr}
    (seen : ∀ mark ∈ expr.marks, view.node mark.id) :
    right.closureOf? renames (expr.renumber moved.file) =
      (left.closureOf? renames expr).map (Closure.renumber moved.file) := by
  induction renames generalizing expr with
  | zero =>
      unfold closureOf?
      rw [Expr.unparen_renumber]
      cases expr.unparen <;> simp [Expr.renumber, Closure.renumber, Block.renumber]
  | succ renames ih =>
      unfold closureOf?
      rw [Expr.unparen_renumber]
      rw [← Expr.marks_unparen] at seen
      cases named : expr.unparen with
      | ident ident =>
          have here := same.boundValue?_eq (seen ident.mark (by simp [named, Expr.marks]))
          simp only [Expr.renumber, here]
          cases bound : left.boundValue? ident with
          | none => rfl
          | some value =>
              exact ih fun mark marked => same.seen mark (marks_of_boundValue? bound marked)
      | literal => simp [Expr.renumber, Closure.renumber, Block.renumber]
      | _ => simp [Expr.renumber]

theorem closure?_eq {call : Call} (site : .call call ∈ left.program.nodes) :
    right.closure? (call.renumber moved.file) =
      (left.closure? call).map (Closure.renumber moved.file) :=
  same.closureOf?_eq maxRenames fun _ marked =>
    same.seen_call site (by simp [Call.marks, marked])

/-! ## Paths into callees -/

theorem reroot_eq (path : AccessPath) {ident : Ident} (seen : view.node ident.id) :
    right.reroot (path.rename moved) (ident.renumber moved.file) =
      (left.reroot path ident).map (AccessPath.rename moved) := by
  rw [reroot, reroot, same.tables.objectOf_eq seen]
  cases left.tables.objectOf ident <;> rfl

theorem carryPackage_eq (lock : AccessPath) :
    right.carryPackage (lock.rename moved) =
      (left.carryPackage lock).map (AccessPath.rename moved) := by
  have root : (right.tables.symbol? (lock.rename moved).root.symbol).any Symbol.isPackageVar =
      (left.tables.symbol? lock.root.symbol).any Symbol.isPackageVar := by
    have symbol := same.tables.symbol?_eq (same.typed lock.root.symbol)
    rw [AccessPath.rename, PathNode.rename, symbol]
    cases left.tables.symbol? lock.root.symbol with
    | none => rfl
    | some symbol =>
        obtain ⟨name, kind, package, type, decl⟩ := symbol
        cases kind <;> rfl
  rw [carryPackage, carryPackage, root, apply_ite (Option.map (AccessPath.rename moved))]
  rfl

section Declarations

variable {call : Call} (site : .call call ∈ left.program.nodes) {decl : FuncDecl}
  (declared : decl ∈ left.program.functions)
include site declared

theorem carryReceiver_eq (lock : AccessPath) :
    right.carryReceiver (lock.rename moved) (call.renumber moved.file)
        (decl.renumber moved.file) =
      (left.carryReceiver lock call decl).map (AccessPath.rename moved) := by
  rw [carryReceiver, carryReceiver, decl.receiver_renumber, same.path?_eq site]
  cases named : decl.receiver.bind Receiver.name with
  | none => rfl
  | some name =>
      have seen : view.node name.id := same.seen name.mark
        (left.program.marks_of_function declared
          (by simp [FuncDecl.marks, FuncDecl.innerMarks, named]))
      cases left.path? call with
      | none => rfl
      | some path =>
          simp only [Option.map_some, Option.bind_eq_bind, Option.bind_some,
            lock.suffix_rename moved]
          cases lock.suffix path with
          | none => rfl
          | some rest => exact same.reroot_eq rest seen

theorem carryArgument_eq (lock : AccessPath) :
    right.carryArgument (lock.rename moved) (call.renumber moved.file)
        (decl.renumber moved.file) =
      (left.carryArgument lock call decl).map (AccessPath.rename moved) := by
  have pairs : (call.renumber moved.file).args.zip
      (Param.idents (decl.renumber moved.file).params) =
        (call.args.zip (Param.idents decl.params)).map
          (Prod.map (Expr.renumber moved.file) (Option.map (Ident.renumber moved.file))) := by
    rw [← List.zip_map, ← renumberExprs_eq_map, ← Param.idents_renumber]
    rfl
  have each (pair : Expr × Option Ident)
      (member : pair ∈ call.args.zip (Param.idents decl.params)) :
      (do
        let name ← pair.2.map (Ident.renumber moved.file)
        let argPath ← AccessPath.ofExpr? right.tables (pair.1.renumber moved.file).stripAddress
        right.reroot (← (lock.rename moved).stripFront argPath.nodes) name) =
      Option.map (AccessPath.rename moved) (do
        let name ← pair.2
        let argPath ← AccessPath.ofExpr? left.tables pair.1.stripAddress
        left.reroot (← lock.stripFront argPath.nodes) name) := by
    obtain ⟨arg, param⟩ := pair
    obtain ⟨arg_mem, param_mem⟩ := List.of_mem_zip member
    cases param with
    | none => rfl
    | some name =>
        have seen : view.node name.id := same.seen name.mark
          (left.program.marks_of_function declared
            (by simp [FuncDecl.marks, FuncDecl.innerMarks, Param.mark_of_ident param_mem]))
        have path := same.tables.path_eq (fun mark marked => same.seen_call site (by
          rw [arg.marks_stripAddress] at marked
          simp [Call.marks, marks_subset_exprMarks arg_mem marked]) :
            ∀ mark ∈ arg.stripAddress.marks, view.node mark.id)
        simp only [Option.map_some, Option.bind_eq_bind, Option.bind_some,
          Expr.stripAddress_renumber, path]
        cases AccessPath.ofExpr? left.tables arg.stripAddress with
        | none => rfl
        | some argPath =>
            simp only [Option.map_some, Option.bind_some, AccessPath.nodes_rename,
              lock.stripFront_rename moved]
            cases lock.stripFront argPath.nodes with
            | none => rfl
            | some rest => exact same.reroot_eq rest seen
  have all := congrArg (List.findSome? id) (List.map_congr_left each)
  rw [List.findSome?_map, List.findSome?_map] at all
  rw [carryArgument, carryArgument, pairs, List.findSome?_map, List.map_findSome?]
  exact all

theorem carry_eq (lock : AccessPath) :
    right.carry (lock.rename moved) (call.renumber moved.file) (decl.renumber moved.file) =
      (left.carry lock call decl).map (AccessPath.rename moved) := by
  rw [carry, carry, same.search, same.carryReceiver_eq site declared, same.carryPackage_eq,
    same.carryArgument_eq site declared, Option.map_or, Option.map_or,
    apply_ite (Option.map (AccessPath.rename moved)),
    apply_ite (Option.map (AccessPath.rename moved))]
  rfl

end Declarations

end Corresponds

/-! ## Frames -/

/-- The closure that a call of the program runs stands in the program. -/
theorem closure_mem_of_closure? {subject : Subject} {call : Call}
    (site : .call call ∈ subject.program.nodes) {literal : Closure}
    (closure : subject.closure? call = some literal) :
    .closure literal ∈ subject.program.nodes := by
  rcases List.mem_append.mp (closure_mem_of_closureOf? closure) with member | member
  · exact member
  · exact subject.program.closed_nodes.call call site (List.mem_append_left _ member)

/-- The keys belong to corresponding callees. -/
def KeyMatches (subject : Subject) (moved : Renaming) (key other : String) : Prop :=
  ∃ callee, subject.Enterable callee ∧ key = callee.key ∧ other = (callee.rename moved).key

/-- The frames belong to corresponding callees and have the same site. -/
structure FrameMatches (subject : Subject) (moved : Renaming) (frame other : Frame) : Prop where
  key : subject.KeyMatches moved frame.key other.key
  path : other.path = frame.path.rename moved
  calls : other.calls = frame.calls.map (Call.renumber moved.file)
  site : other.site = frame.site
  known : ∀ call ∈ frame.calls, .call call ∈ subject.program.nodes

namespace Corresponds

variable {moved : Renaming} {view : View} {left right : Subject}
  (same : left.Corresponds moved view right)
include same

variable {call : Call} (site : .call call ∈ left.program.nodes)
include site

theorem enterClosure_matches {literal : Closure} (known : .closure literal ∈ left.program.nodes)
    (lock : AccessPath) :
    left.FrameMatches moved (left.enterClosure lock call literal)
      (right.enterClosure (lock.rename moved) (call.renumber moved.file)
        (literal.renumber moved.file)) where
  key := ⟨.ofClosure literal, .inr ⟨literal, known, rfl⟩, rfl, rfl⟩
  path := rfl
  calls := literal.body.calls_renumber moved.file
  site := by
    rw [enterClosure, enterClosure, same.callee?_eq site, same.location_eq site,
      Callee.ofClosure_renumber, Option.getD_map, Callee.display_rename]
  known inner member :=
    left.program.closed_nodes.closure literal known (Node.mem_of_callsFrom member)

theorem enterDeclaration_matches (lock : AccessPath) :
    Option.Rel (left.FrameMatches moved) (left.enterDeclaration lock call)
      (right.enterDeclaration (lock.rename moved) (call.renumber moved.file)) := by
  rw [enterDeclaration, enterDeclaration, same.callee?_eq site]
  cases callee_eq : left.callee? call with
  | none => exact .none
  | some callee =>
      simp only [Option.map_some, Option.bind_eq_bind, Option.bind_some,
        same.declaration call callee site callee_eq, same.location_eq site]
      cases found : left.declaration? callee with
      | none => exact .none
      | some decl =>
          have declared : decl ∈ left.program.functions := (declaration?_spec found).1
          simp only [Option.map_some, Option.bind_some, same.carry_eq site declared]
          cases body : decl.body with
          | none =>
              simp only [FuncDecl.renumber, body]
              exact .none
          | some block =>
              cases left.carry lock call decl with
              | none =>
                  simp only [FuncDecl.renumber, body]
                  exact .none
              | some path =>
                  simp only [FuncDecl.renumber, body, Option.map_some, Option.bind_some]
                  refine .some ⟨⟨callee, .inl ⟨call, site, callee_eq, ?_⟩, rfl, rfl⟩, rfl,
                    block.calls_renumber moved.file, ?_, fun inner member => ?_⟩
                  · rw [found]
                    rfl
                  · rw [Callee.display_rename]
                  · exact left.program.body_subset_nodes declared body
                      (Node.mem_of_callsFrom member)

theorem enter_matches (lock : AccessPath) :
    Option.Rel (left.FrameMatches moved) (left.enter lock call)
      (right.enter (lock.rename moved) (call.renumber moved.file)) := by
  rw [enter, enter, same.closure?_eq site]
  cases closure : left.closure? call with
  | none => exact same.enterDeclaration_matches site lock
  | some literal =>
      exact .some (same.enterClosure_matches site (closure_mem_of_closure? site closure) lock)

end Corresponds

/-! ## Runs -/

/-- The frames correspond and have come to the same call. -/
structure VisitMatches (subject : Subject) (moved : Renaming) (visit other : Visit) : Prop
    extends subject.FrameMatches moved visit.toFrame other.toFrame where
  next : other.next = visit.next

/-- The searches have entered corresponding frames, and are not to enter corresponding callees. -/
structure SearchMatches (subject : Subject) (moved : Renaming) (search other : Search) : Prop where
  stack : List.Forall₂ (subject.VisitMatches moved) search.stack other.stack
  history : ∀ key another, subject.KeyMatches moved key another →
    (key ∈ search.history ↔ another ∈ other.history)

theorem sites_eq {subject : Subject} {moved : Renaming} {visits others : List Visit}
    (alike : List.Forall₂ (subject.VisitMatches moved) visits others) :
    (others.map fun visit => visit.site) = visits.map fun visit => visit.site := by
  induction alike with
  | nil => rfl
  | cons first _ ih => rw [List.map_cons, List.map_cons, first.site, ih]

namespace Corresponds

variable {moved : Renaming} {view : View} {left right : Subject}
  (same : left.Corresponds moved view right) {call : Call} {history others : Std.TreeSet String}
include same

theorem key_eq_iff {key other left_key right_key : String}
    (first : left.KeyMatches moved key other) (second : left.KeyMatches moved left_key right_key) :
    key = left_key ↔ other = right_key := by
  obtain ⟨callee, enterable, rfl, rfl⟩ := first
  obtain ⟨another, also, rfl, rfl⟩ := second
  exact same.keys callee another enterable also

theorem entry?_matches (site : .call call ∈ left.program.nodes) (path : AccessPath)
    (alike : ∀ key another, left.KeyMatches moved key another → (key ∈ history ↔ another ∈ others)) :
    Option.Rel (left.FrameMatches moved) (left.entry? history path call)
      (right.entry? others (path.rename moved) (call.renumber moved.file)) := by
  unfold entry?
  rw [same.releases_eq site]
  split
  · exact .none
  · have entered := same.enter_matches site path
    generalize left.enter path call = own at entered ⊢
    generalize right.enter (path.rename moved) (call.renumber moved.file) = theirs at entered ⊢
    cases entered with
    | none => exact .none
    | @some frame other frames =>
        have known : others.contains other.key = history.contains frame.key := by
          rw [Bool.eq_iff_iff, Std.TreeSet.contains_iff_mem, Std.TreeSet.contains_iff_mem]
          exact (alike _ _ frames.key).symm
        rw [Option.filter_some, Option.filter_some, known]
        split
        · exact .some frames
        · exact .none

/-- When corresponding frames are left, corresponding keys go from the histories. -/
theorem history_leave {top copy : Visit} (first : left.VisitMatches moved top copy)
    {below rest : List Visit} (lower : List.Forall₂ (left.VisitMatches moved) below rest)
    (known : ∀ key another, left.KeyMatches moved key another → (key ∈ history ↔ another ∈ others))
    (key another : String) (pair : left.KeyMatches moved key another) :
    key ∈ (if below.isEmpty then history else history.erase top.key) ↔
      another ∈ (if rest.isEmpty then others else others.erase copy.key) := by
  cases lower with
  | nil => exact known key another pair
  | cons =>
      simp only [List.isEmpty_cons, Bool.false_eq_true, if_false, Std.TreeSet.mem_erase,
        Std.compare_ne_eq_iff_ne, ne_eq, same.key_eq_iff first.key pair, known key another pair]

theorem advance_matches {search other : Search} (alike : left.SearchMatches moved search other) :
    Search.Step.Rel (left.SearchMatches moved) (left.advance search) (right.advance other) := by
  obtain ⟨stack, history⟩ := search
  obtain ⟨copies, others⟩ := other
  obtain ⟨visits, known⟩ := alike
  cases visits with
  | nil => exact .done none
  | @cons top copy below rest first lower =>
      have next_call : copy.calls[copy.next]? =
          top.calls[top.next]?.map (Call.renumber moved.file) := by
        rw [first.calls, first.next, List.getElem?_map]
      rw [advance, advance]
      simp only [next_call, first.path]
      cases call_eq : top.calls[top.next]? with
      | none => exact .more ⟨lower, same.history_leave first lower known⟩
      | some call =>
          have site := first.known call (List.mem_of_getElem? call_eq)
          have passed : left.VisitMatches moved { top with next := top.next + 1 }
              { copy with next := copy.next + 1 } :=
            ⟨first.toFrameMatches, congrArg (· + 1) first.next⟩
          simp only [Option.map_some, same.repeats_eq site]
          split
          · rw [same.acquisitionFrame_eq site, sites_eq (.cons passed lower)]
            exact .done _
          · have entry := same.entry?_matches site top.path known
            generalize left.entry? history top.path call = own at entry ⊢
            generalize right.entry? others (top.path.rename moved)
              (call.renumber moved.file) = theirs at entry ⊢
            cases entry with
            | none => exact .more ⟨.cons passed lower, known⟩
            | @some frame other frames =>
                refine .more ⟨.cons ⟨frames, rfl⟩ (.cons passed lower), fun key another pair => ?_⟩
                rw [Std.TreeSet.mem_insert, Std.TreeSet.mem_insert, Std.compare_eq_iff_eq,
                  Std.compare_eq_iff_eq, same.key_eq_iff frames.key pair, known key another pair]

/-- A search that begins with a call gives the same answer as one that begins with the corresponding
call. -/
theorem searchFrom_eq (site : .call call ∈ left.program.nodes) (lock : AccessPath) :
    right.searchFrom (lock.rename moved) (call.renumber moved.file) =
      left.searchFrom lock call := by
  refine searchFrom_eq_of_related (fun _ _ => same.advance_matches) ?_
  have entered := same.enter_matches site lock
  generalize left.enter lock call = own at entered ⊢
  generalize right.enter (lock.rename moved) (call.renumber moved.file) = theirs at entered ⊢
  cases entered with
  | none => exact .none
  | some frames =>
      refine .some ⟨.cons ⟨frames, rfl⟩ .nil, fun key another _ => ?_⟩
      simp [Search.start]

end Corresponds

end Subject

end Relock
