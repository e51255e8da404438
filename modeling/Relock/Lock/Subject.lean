import Relock.Config.Basic
import Relock.Lock.Callee
import Relock.Lock.Path
import Relock.Program.Binding
import Relock.Program.Stream
import Relock.Resolution.Program
import Std.Data.TreeSet

/-!
# The subject of an analysis

A resolved program with the tables by which analysis finds declarations and bindings, and with the
configuration it follows.
-/

namespace Relock

/-- Tables over a resolved program. -/
structure ProgramIndex where
  /-- Declarations by the keys of their callees; the first of a key counts. -/
  declarations : Std.TreeMap String FuncDecl
  /-- The variables that are assigned outside the statements that declare them. -/
  reassigned : Std.TreeSet SymbolId
  /-- Bindings by their numbers. -/
  bindings : Std.TreeMap NodeId Binding

namespace ProgramIndex

/-- Declarations by the keys of their callees; the first of a key counts. -/
def declarationTable (program : Program) (tables : Tables) : Std.TreeMap String FuncDecl :=
  program.functions.foldl (fun table decl =>
    match Callee.ofDecl? tables decl with
    | some callee => table.insertIfNew callee.key decl
    | none => table) ∅

/-- The variables that an assignment assigns without declaring them. -/
def reassignedBy (tables : Tables) (assignment : Assignment) : List SymbolId :=
  assignment.targets.filterMap fun target => do
    let ident ← Binding.targetName? target
    let symbol ← tables.objectOf ident
    if (tables.symbol? symbol).bind Symbol.decl = some assignment.id then none else some symbol

/-- The tables over a resolved program. -/
def build (program : Program) (tables : Tables) : ProgramIndex where
  declarations := declarationTable program tables
  reassigned := Std.TreeSet.ofList (program.assignments.flatMap (reassignedBy tables))
  bindings := program.bindingTable

end ProgramIndex

/-- A resolved program and how it is to be analysed. -/
structure Subject where
  program : Program
  tables : Tables
  lock : LockConfig
  search : SearchConfig
  index : ProgramIndex
  index_eq : index = ProgramIndex.build program tables

namespace Subject

/-- The subject made of a program, its tables and a configuration. -/
def ofTables (program : Program) (tables : Tables) (config : Config) : Subject where
  program := program
  tables := tables
  lock := config.lock
  search := config.search
  index := ProgramIndex.build program tables
  index_eq := rfl

/-- The subject made of a program and a configuration. -/
def ofProgram (program : Program) (config : Config) : Subject :=
  ofTables program program.resolve config

variable (subject : Subject)

/-- The callee of a call. -/
def callee? (call : Call) : Option Callee := Callee.ofCall? subject.tables call

/-- The access path of the callee of a call. -/
def path? (call : Call) : Option AccessPath := AccessPath.ofExpr? subject.tables call.callee

/-- The callee acquires a lock. -/
def isAcquire (callee : Callee) : Bool :=
  callee.isDeclared && callee.name == subject.lock.acquire

/-- The callee releases a lock. -/
def isRelease (callee : Callee) : Bool :=
  callee.isDeclared && callee.name == subject.lock.release

/-- The call acquires a lock. -/
def acquires (call : Call) : Bool := (subject.callee? call).any subject.isAcquire

/-- The call releases a lock. -/
def releases (call : Call) : Bool := (subject.callee? call).any subject.isRelease

/-- Where a call begins. -/
def location (call : Call) : SourceLocation := subject.program.locate call.id call.span

/-- The declaration of a callee. -/
def declaration? (callee : Callee) : Option FuncDecl :=
  if callee.isDeclared then subject.index.declarations[callee.key]? else none

/-- The variable is assigned outside the statement that declares it. -/
def isReassigned (symbol : SymbolId) : Bool := subject.index.reassigned.contains symbol

end Subject

end Relock
