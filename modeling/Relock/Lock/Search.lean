import Relock.Lock.Closure
import Relock.Lock.Violation

/-!
# Search for nested acquisitions

While a lock is held, a call may reach a second acquisition of it through other calls. The search
enters the callee of each call in turn, depth first. The path to the lock is spelled anew at every
entry, the way the callee reaches the lock, and a callee from which the lock cannot be reached is
not entered.

A callee is not entered again from within itself, except for the one that the search begins with,
which may be entered once more.
-/

namespace Relock

/-- A callee that the search has entered. -/
structure Frame where
  key : String
  /-- The path to the lock from inside the callee. -/
  path : AccessPath
  /-- The calls the callee makes. -/
  calls : List Call
  /-- The call that entered the callee. -/
  site : StackFrame
deriving Inhabited

/-- A frame that has been entered and not left, with the position of its call that comes next. -/
structure Visit extends Frame where
  next : Nat := 0
deriving Inhabited

/-- The state of a search. -/
structure Search where
  /-- The frames that have been entered and not left, the innermost first. -/
  stack : List Visit
  /-- The keys of the callees that are not to be entered. -/
  history : Std.TreeSet String

namespace Search

/-- What a step of a search leads to: its answer, or a further state. -/
inductive Step where
  | done (answer : Option (List StackFrame))
  | more (search : Search)

/-- The state in which only the outermost frame has been entered. -/
def start (root : Frame) : Search := ⟨[{ toFrame := root }], ∅⟩

/-- The keys of the frames above the outermost one, the innermost first. -/
def keys (search : Search) : List String := search.stack.dropLast.map fun visit => visit.key

end Search

/-- The expression whose address is taken, or the expression itself. -/
def Expr.stripAddress (expr : Expr) : Expr :=
  match expr.unparen with
  | .unary "&" operand _ => operand.unparen
  | inner => inner

namespace Subject

variable (subject : Subject)

/-- The path to a lock, from the variable of a callee that a name declares. -/
def reroot (path : AccessPath) (ident : Ident) : Option AccessPath :=
  (subject.tables.objectOf ident).map fun symbol => path.withRoot (.ofIdent ident symbol)

/-- The path to a lock from the receiver of the callee, when the call reaches the method through the
beginning of the path. -/
def carryReceiver (lock : AccessPath) (call : Call) (decl : FuncDecl) : Option AccessPath := do
  let name ← decl.receiver.bind Receiver.name
  let callPath ← subject.path? call
  subject.reroot (← lock.suffix callPath) name

/-- The path to a lock from a parameter of the callee, when the argument is the beginning of the
path. -/
def carryArgument (lock : AccessPath) (call : Call) (decl : FuncDecl) : Option AccessPath :=
  (call.args.zip (Param.idents decl.params)).findSome? fun (arg, param) => do
    let name ← param
    let argPath ← AccessPath.ofExpr? subject.tables arg.stripAddress
    subject.reroot (← lock.stripFront argPath.nodes) name

/-- The path to a lock, when its root is a variable of a package, which means the same
everywhere. -/
def carryPackage (lock : AccessPath) : Option AccessPath :=
  if (subject.tables.symbol? lock.root.symbol).any Symbol.isPackageVar then some lock else none

/-- The path to a lock from inside the callee: through the receiver, else through an argument, else
as a variable of a package, as far as the configuration allows. -/
def carry (lock : AccessPath) (call : Call) (decl : FuncDecl) : Option AccessPath :=
  ((subject.carryReceiver lock call decl).or
    (if subject.search.followArguments then subject.carryArgument lock call decl else none)).or
    (if subject.search.followPackageLocks then subject.carryPackage lock else none)

/-- Enter the closure literal that a call runs. The literal sees the variables of its surroundings,
so the path to the lock stays as it is. -/
def enterClosure (lock : AccessPath) (call : Call) (literal : Closure) : Frame where
  key := (Callee.ofClosure literal).key
  path := lock
  calls := literal.body.calls
  site := ⟨((subject.callee? call).getD (.ofClosure literal)).display, subject.location call⟩

/-- Enter the declaration of the callee of a call, if the lock can be reached from it. -/
def enterDeclaration (lock : AccessPath) (call : Call) : Option Frame := do
  let callee ← subject.callee? call
  let decl ← subject.declaration? callee
  let body ← decl.body
  let path ← subject.carry lock call decl
  return ⟨callee.key, path, body.calls, ⟨callee.display, subject.location call⟩⟩

/-- Enter the code that a call runs. -/
def enter (lock : AccessPath) (call : Call) : Option Frame :=
  match subject.closure? call with
  | some literal => some (subject.enterClosure lock call literal)
  | none => subject.enterDeclaration lock call

/-- The call performs the operation that the path ends in, on the same lock. -/
def repeats (path : AccessPath) (call : Call) : Bool :=
  (subject.path? call).any fun callPath => callPath.equal path 0

/-- The frame of a call that acquires the lock again. -/
def acquisitionFrame (call : Call) : StackFrame :=
  ⟨match subject.callee? call with
    | some callee => callee.display
    | none => ((subject.path? call).map fun path => path.last.name).getD "",
   subject.location call⟩

/-- The frame that a search goes on to at a call. There is none if the call releases a lock or
cannot be entered, or if its callee has been entered and not yet left. -/
def entry? (history : Std.TreeSet String) (path : AccessPath) (call : Call) : Option Frame :=
  if subject.releases call then
    none
  else
    (subject.enter path call).filter fun frame => !history.contains frame.key

/-- One step of a search: look at the next call of the innermost frame, or leave the frame if there
is none. The outermost frame has no part in the history. -/
def advance (search : Search) : Search.Step :=
  match search.stack with
  | [] => .done none
  | top :: below =>
      match top.calls[top.next]? with
      | none =>
          .more ⟨below, if below.isEmpty then search.history else search.history.erase top.key⟩
      | some call =>
          let stack := { top with next := top.next + 1 } :: below
          if subject.repeats top.path call then
            .done (some ((stack.map fun visit => visit.site).reverse ++
              [subject.acquisitionFrame call]))
          else
            match subject.entry? search.history top.path call with
            | none => .more ⟨stack, search.history⟩
            | some frame => .more ⟨{ toFrame := frame } :: stack, search.history.insert frame.key⟩

end Subject

end Relock
