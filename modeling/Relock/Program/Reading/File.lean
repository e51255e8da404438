import Relock.Program.Reading.Stmt
import Relock.Source.Path
import Relock.Text.Blank

/-!
# Files

How the tree of a whole file is read: its package clause, its imports and its declarations. The
files of a program are numbered in their order.
-/

namespace Relock

namespace Reading

/-- A declaration of a function or method. -/
def funcDecl (file : Nat) (node : Reading) : Numbered FuncDecl := do
  let id ← fresh file
  let name ← declaredName file node.label node.children
  let receiver ← receiverOf file node.children
  let params ← paramsOf file node.children
  let result ← resultOf file node.children
  let block ← (under? "body" node.children).mapM fun block =>
    return ⟨← body (named block.children), block.span⟩
  return ⟨id, name, receiver, params, result, block, node.span⟩

/-- The fields declared by one node of a structure. The star of an embedded pointer stands beside
its type. -/
def fieldDecl (file : Nat) (node : Reading) : Numbered FieldDecl := do
  let names ← (allUnder "name" node.children).mapM (ident file)
  let type ← declaredType node.children
  let isPointer := names.isEmpty && (ofKind? "*" node.children).isSome
  return ⟨names, if isPointer then .pointer type else type⟩

/-- The fields of a structure. -/
def fieldDecls (file : Nat) (struct : Reading) : Numbered (List FieldDecl) :=
  match ofKind? "field_declaration_list" struct.children with
  | some list =>
      ((named list.children).filter fun node => node.kind == "field_declaration").mapM
        (fieldDecl file)
  | none => return []

/-- The names of the methods of an interface. -/
def methodNames (file : Nat) (interface : Reading) : Numbered (List Ident) :=
  (((named interface.children).filter fun node =>
      node.kind == "method_elem" || node.kind == "method_spec").filterMap
    fun node => under? "name" node.children).mapM (ident file)

/-- The right-hand side of a type declaration. -/
def typeBody (file : Nat) (children : List Reading) : Numbered TypeBody :=
  match under? "type" children with
  | some type =>
      match type.kind with
      | "struct_type" => return .struct (← type.fieldDecls file)
      | "interface_type" => return .interface (← type.methodNames file)
      | _ => return .other (← type.type)
  | none => return .other .other

/-- A declaration of a type. -/
def typeSpec (file : Nat) (node : Reading) : Numbered TypeSpec := do
  let name ← declaredName file node.label node.children
  return ⟨name, ← typeBody file node.children, node.span⟩

/-- The declarations that a node at the top of a file makes. -/
def decls (file : Nat) (node : Reading) : Numbered (List Decl) :=
  match node.kind with
  | "function_declaration" | "method_declaration" => return [.func (← node.funcDecl file)]
  | "var_declaration" | "const_declaration" => return (← node.specs).map .var
  | "type_declaration" =>
      ((named node.children).filter fun spec =>
        spec.kind == "type_spec" || spec.kind == "type_alias").mapM
          fun spec => return .type (← spec.typeSpec file)
  | _ => return []

/-- The package name in a package clause. -/
def packageName? (node : Reading) : Option String :=
  if node.kind == "package_clause" then
    (ofKind? "package_identifier" node.children).map text
  else
    none

/-- One import. -/
def import? (node : Reading) : Option Import :=
  (under? "path" node.children).map fun path =>
    ⟨(under? "name" node.children).map text, unquote path.text⟩

/-- The imports among the children of a node, in groups or alone. -/
def importsOf (children : List Reading) : List Import :=
  (named children).flatMap fun node =>
    match node.kind with
    | "import_spec" => node.import?.toList
    | "import_spec_list" => node.imports
    | _ => []

/-- A node whose children have been read. -/
def ofChildren (file : Nat) (label : Label) (children : List Reading) : Reading where
  label := label
  children := children
  type := typeOf file label children
  expr := exprOf file label children
  stmts := stmtsOf file label children
  specs := specsOf file children
  imports := importsOf children

/-- The whole file at a path. The last package clause and all imports and declarations count. -/
def file (number : Nat) (path : String) (root : Reading) : Numbered File := do
  let nodes := named root.children
  let decls ← nodes.mapM (decls number)
  return {
    id := number
    path := path
    package := (nodes.filterMap packageName?).getLast?.getD ""
    dir := SourcePath.directory path
    imports := (nodes.filter fun node => node.kind == "import_declaration").flatMap Reading.imports
    decls := decls.flatten
  }

end Reading

namespace Tree

mutual

/-- The reading of a tree. -/
def reading (file : Nat) : Tree → Reading
  | node label children => Reading.ofChildren file label (readings file children)

/-- The readings of trees that stand side by side. -/
def readings (file : Nat) : List Tree → List Reading
  | [] => []
  | tree :: trees => reading file tree :: readings file trees

end

theorem readings_eq_map (file : Nat) (trees : List Tree) :
    readings file trees = trees.map (reading file) := by
  induction trees with
  | nil => simp [readings]
  | cons tree trees induction => simp [readings, induction]

/-- The file that a tree describes. -/
def toFile (number : Nat) (path : String) (tree : Tree) : File :=
  (((tree.reading number).file number path).run 0).1

end Tree

/-- The program made of trees and the paths of their files. -/
def Program.ofTrees (trees : List (String × Tree)) : Program :=
  ⟨trees.zipIdx.map fun ((path, tree), number) => tree.toFile number path⟩

end Relock
