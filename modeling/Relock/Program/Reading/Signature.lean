import Relock.Program.Reading.Basic

/-!
# Types, parameters and results

How concrete trees are read as types and as the signatures of functions.
-/

namespace Relock.Reading

/-- The parameters declared by one node of a parameter list. -/
def param (file : Nat) (node : Reading) (variadic : Bool) : Numbered Param := do
  let names ← (allUnder "name" node.children).mapM (ident file)
  return ⟨names, ← declaredType node.children, variadic⟩

/-- The node of a parameter list declares parameters: `some true` when the last one is variadic. -/
def paramShape (node : Reading) : Option Bool :=
  if node.kind == "parameter_declaration" then some false
  else if node.kind == "variadic_parameter_declaration" then some true
  else none

/-- The parameters of a parameter list. -/
def params (file : Nat) (list : Reading) : Numbered (List Param) :=
  ((named list.children).filterMap fun node => node.paramShape.map (node, ·)).mapM
    fun (node, variadic) => node.param file variadic

/-- The parameters under the field `parameters`. -/
def paramsOf (file : Nat) (children : List Reading) : Numbered (List Param) :=
  match under? "parameters" children with
  | some list => list.params file
  | none => return []

/-- The type of a lone result; several results have none. -/
def soleResult : List Param → Option TypeExpr
  | [param] => if param.names.length ≤ 1 then some param.type else none
  | _ => none

/-- The result type of a function, when it has exactly one. -/
def result (file : Nat) (node : Reading) : Numbered (Option TypeExpr) :=
  if node.kind == "parameter_list" then
    return soleResult (← node.params file)
  else
    return some (← node.type)

/-- The result type under the field `result`. -/
def resultOf (file : Nat) (children : List Reading) : Numbered (Option TypeExpr) :=
  match under? "result" children with
  | some node => node.result file
  | none => return none

/-- The text of the node under a field; empty when the field is absent. -/
def textUnder (field : String) (children : List Reading) : String :=
  match under? field children with
  | some node => node.text
  | none => ""

/-- A node as a type. -/
def typeOf (file : Nat) (label : Label) (children : List Reading) : Numbered TypeExpr :=
  match label.kind with
  | "type_identifier" | "identifier" => return .name label.text
  | "qualified_type" => return .qualified (textUnder "package" children) (textUnder "name" children)
  | "pointer_type" =>
      match (named children).head? with
      | some target => return .pointer (← target.type)
      | none => return .other
  | "function_type" => return .ofResult (← resultOf file children)
  | "generic_type" => declaredType children
  | "parenthesized_type" =>
      match (named children).head? with
      | some inner => inner.type
      | none => return .other
  | _ => return .other

/-- The receiver in a receiver list: its first parameter, by the first of its names. -/
def receiver (file : Nat) (list : Reading) : Numbered (Option Receiver) :=
  match (named list.children).find? fun node => node.kind == "parameter_declaration" with
  | none => return none
  | some node => do
      let name ← (under? "name" node.children).mapM (ident file)
      return some ⟨name, ← declaredType node.children⟩

/-- The receiver under the field `receiver`. -/
def receiverOf (file : Nat) (children : List Reading) : Numbered (Option Receiver) :=
  match under? "receiver" children with
  | some list => list.receiver file
  | none => return none

end Relock.Reading
