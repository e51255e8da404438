import Relock.Program.Basic

/-!
# Streams of nodes

Lock tracking looks at a body as the stream of its calls, closure literals, deferred calls and
returns in source order, each construct before its parts. What a construct contains is then told by
source ranges: its parts begin before it ends.
-/

namespace Relock

/-- A construct that lock tracking reacts to. -/
inductive Node where
  | func (decl : FuncDecl)
  | closure (literal : Closure)
  | call (call : Call)
  | defer (call : Call) (span : Span)
  | return (span : Span)
deriving Inhabited

namespace Node

/-- The source range of the construct. -/
def span : Node → Span
  | func decl => decl.span
  | closure literal => literal.span
  | call site => site.span
  | defer _ span => span
  | .return span => span

/-- What kind of construct it is. -/
def kind : Node → String
  | func _ => "func_decl"
  | closure _ => "func_lit"
  | call _ => "call"
  | defer _ _ => "defer"
  | .return _ => "return"

end Node

mutual

/-- The nodes of an expression. -/
def Expr.nodes : Expr → List Node
  | .ident _ => []
  | .selector _ base _ _ => base.nodes
  | .call id callee args span => .call ⟨id, callee, args, span⟩ :: (callee.nodes ++ exprNodes args)
  | .literal id params result body bodySpan span =>
      .closure ⟨id, params, result, ⟨body, bodySpan⟩, span⟩ :: stmtNodes body
  | .paren inner _ => inner.nodes
  | .unary _ operand _ => operand.nodes
  | .composite _ elements _ => exprNodes elements
  | .other _ parts _ => exprNodes parts

/-- The nodes of expressions, one after the other. -/
def exprNodes : List Expr → List Node
  | [] => []
  | expr :: exprs => expr.nodes ++ exprNodes exprs

/-- The nodes of a statement. -/
def Stmt.nodes : Stmt → List Node
  | .expr expr => expr.nodes
  | .defer id callee args callSpan span =>
      let call : Call := ⟨id, callee, args, callSpan⟩
      .defer call span :: .call call :: (callee.nodes ++ exprNodes args)
  | .go id callee args callSpan _ =>
      .call ⟨id, callee, args, callSpan⟩ :: (callee.nodes ++ exprNodes args)
  | .return results span => .return span :: exprNodes results
  | .assign _ targets values _ _ => exprNodes targets ++ exprNodes values
  | .var _ _ _ values _ => exprNodes values
  | .block body _ => stmtNodes body
  | .compound _ parts _ => stmtNodes parts

/-- The nodes of statements, one after the other. -/
def stmtNodes : List Stmt → List Node
  | [] => []
  | stmt :: stmts => stmt.nodes ++ stmtNodes stmts

end

namespace Block

/-- The nodes of a block. -/
def nodes (block : Block) : List Node := stmtNodes block.body

end Block

namespace FuncDecl

/-- The stream of a declaration, which begins with the declaration itself. -/
def stream (decl : FuncDecl) : List Node :=
  .func decl :: (match decl.body with
    | some block => block.nodes
    | none => [])

end FuncDecl

namespace Closure

/-- The stream of a closure literal, which begins with the literal itself. -/
def stream (literal : Closure) : List Node := .closure literal :: literal.body.nodes

end Closure

namespace Decl

/-- The nodes of a declaration. -/
def nodes : Decl → List Node
  | func decl => decl.stream
  | var spec => exprNodes spec.values
  | type _ => []

end Decl

namespace Program

/-- The nodes of a program in source order. -/
def nodes (program : Program) : List Node :=
  program.files.flatMap fun file => file.decls.flatMap Decl.nodes

end Program

namespace Call

/-- The nodes of the parts of a call. -/
def parts (call : Call) : List Node := call.callee.nodes ++ exprNodes call.args

end Call

namespace Node

/-- The calls among nodes that begin at or after `limit`, without those inside closure literals: a
literal moves the limit to its end. -/
def callsFrom : (limit : Nat) → List Node → List Call
  | _, [] => []
  | limit, node :: nodes =>
      if node.span.startByte < limit then
        callsFrom limit nodes
      else
        match node with
        | closure literal => callsFrom literal.span.endByte nodes
        | call site => site :: callsFrom 0 nodes
        | _ => callsFrom 0 nodes

end Node

namespace Block

/-- The calls of a block in source order, without those inside closure literals. -/
def calls (block : Block) : List Call := Node.callsFrom 0 block.nodes

end Block

end Relock
