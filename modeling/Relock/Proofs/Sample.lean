import Relock.Program.Basic
import Relock.Tree

/-!
# Small programs

Parts from which the programs are built on which theorems are tried. Nodes are numbered by hand, and
what begins at the node of a number begins at the offset and on the line of the same number.
-/

namespace Relock

namespace Sample

/-- A name, at the node of the given number. -/
def name (index : Nat) (text : String) : Ident := ⟨⟨0, index⟩, text, .zero⟩

/-- A range of nine bytes. -/
def spanAt (index : Nat) : Span := ⟨index, index + 9, index, 0, index, 0⟩

/-- The call `holder.mu.operation()`, with six nodes. -/
def lockCall (index : Nat) (holder operation : String) : Call :=
  ⟨⟨0, index⟩,
    .selector ⟨0, index + 1⟩
      (.selector ⟨0, index + 2⟩ (.ident (name (index + 3) holder)) (name (index + 4) "mu") .zero)
      (name (index + 5) operation) .zero,
    [], spanAt index⟩

/-- The call `holder.member()`, with four nodes. -/
def memberCall (index : Nat) (holder member : String) : Call :=
  ⟨⟨0, index⟩,
    .selector ⟨0, index + 1⟩ (.ident (name (index + 2) holder)) (name (index + 3) member) .zero,
    [], spanAt index⟩

/-- The call of a function with variables as its arguments. -/
def plainCall (index : Nat) (function : String) (arguments : List String) : Call :=
  ⟨⟨0, index⟩, .ident (name (index + 1) function),
    arguments.mapIdx fun position argument => .ident (name (index + 2 + position) argument),
    spanAt index⟩

/-- The statement that a call is. -/
def statement (call : Call) : Stmt := .expr (.call call.id call.callee call.args call.span)

/-- A function of holders that makes calls. -/
def function (index : Nat) (title : String) (holders : List String) (calls : List Call) :
    FuncDecl :=
  ⟨⟨0, index⟩, name (index + 1) title, none,
    [⟨holders.mapIdx fun position holder => name (index + 2 + position) holder,
      .pointer (.name "S"), false⟩],
    none, some ⟨calls.map statement, .zero⟩, .zero⟩

/-- The program of functions and of the type of holders, which has a lock in its field `mu`. -/
def program (functions : List FuncDecl) : Program :=
  ⟨[⟨0, "p.go", "p", ".", [⟨none, "sync"⟩],
    .type ⟨name 0 "S", .struct [⟨[name 1 "mu"], .qualified "sync" "RWMutex"⟩], .zero⟩ ::
      functions.map Decl.func⟩]⟩

/-! ## Trees -/

/-- A node of a concrete tree, with its range and the field of its parent that holds it. -/
def tree (kind field : String) (first last : Nat) (children : List Tree) : Tree :=
  .node ⟨kind, ⟨first, last, 0, 0, 0, 0⟩, "", field, true, false⟩ children

/-- A node of a concrete tree without children and with a text. -/
def leaf (kind field text : String) (first : Nat) : Tree :=
  .node ⟨kind, ⟨first, first + text.length, 0, 0, 0, 0⟩, text, field, true, false⟩ []

/-- The call of a function that has a name of one letter. -/
def callTree (field : String) (first last : Nat) (arguments : List Tree) : Tree :=
  tree "call_expression" field first last
    [tree "identifier" "function" first (first + 1) [],
      tree "argument_list" "arguments" (first + 1) last arguments]

/-- A function that defers a closure literal with a call in it and then branches on the type of what
another call gives, with a return in a case. -/
def branching : Tree :=
  tree "source_file" "" 0 90
    [tree "function_declaration" "" 0 90
      [tree "identifier" "name" 5 6 [], tree "parameter_list" "parameters" 6 8 [],
        tree "block" "body" 9 90
          [tree "defer_statement" "" 12 34
            [tree "call_expression" "" 18 34
              [tree "func_literal" "function" 18 32
                [tree "parameter_list" "parameters" 22 24 [],
                  tree "block" "body" 25 32
                    [tree "expression_statement" "" 27 30 [callTree "" 27 30 []]]],
                tree "argument_list" "arguments" 32 34 []]],
            tree "type_switch_statement" "" 36 88
              [tree "expression_list" "alias" 43 44 [tree "identifier" "" 43 44 []],
                callTree "value" 48 51 [],
                tree "default_case" "" 62 86
                  [tree "return_statement" "" 72 83
                    [tree "expression_list" "" 79 83
                      [callTree "" 79 83 [tree "identifier" "" 81 82 []]]]]]]]]

/-- A call without a function, whose number is drawn for nothing. -/
def malformed : Tree :=
  tree "source_file" "" 0 9
    [tree "function_declaration" "" 0 9
      [tree "block" "body" 1 9 [tree "call_expression" "" 2 8 [callTree "" 3 6 []]]]]

end Sample

end Relock
