import Mathlib.Data.List.Nodup
import Relock.Program.Stream

/-!
# The calls and literals of a stream

A stream holds every call and every closure literal of a body, at any depth.
-/

namespace Relock

namespace Node

/-- The closure literals among nodes. -/
def literals (nodes : List Node) : List Closure :=
  nodes.filterMap fun
    | closure literal => some literal
    | _ => none

/-- The calls among nodes. -/
def sites (nodes : List Node) : List Call :=
  nodes.filterMap fun
    | call site => some site
    | _ => none

variable {nodes : List Node}

theorem mem_literals {literal : Closure} : literal ∈ literals nodes ↔ .closure literal ∈ nodes := by
  refine List.mem_filterMap.trans ⟨?_, fun member => ⟨_, member, rfl⟩⟩
  rintro ⟨node, member, same⟩
  cases node with
  | closure other =>
      cases same
      exact member
  | _ => cases same

@[simp]
theorem literals_append (left right : List Node) :
    literals (left ++ right) = literals left ++ literals right := List.filterMap_append

theorem mem_sites {site : Call} : site ∈ sites nodes ↔ .call site ∈ nodes := by
  refine List.mem_filterMap.trans ⟨?_, fun member => ⟨_, member, rfl⟩⟩
  rintro ⟨node, member, same⟩
  cases node with
  | call other =>
      cases same
      exact member
  | _ => cases same

@[simp]
theorem sites_append (left right : List Node) :
    sites (left ++ right) = sites left ++ sites right := List.filterMap_append

/-- The closure literals among nodes differ in the places where they begin. -/
def LiteralsApart (nodes : List Node) : Prop :=
  ∀ left right : Closure, .closure left ∈ nodes → .closure right ∈ nodes →
    left.id.file = right.id.file → left.span.startByte = right.span.startByte → left = right

theorem literalsApart_of_nodup
    (distinct : ((literals nodes).map fun literal =>
      (literal.id.file, literal.span.startByte)).Nodup) : LiteralsApart nodes := by
  intro left right left_mem right_mem file offset
  exact List.inj_on_of_nodup_map distinct (mem_literals.mpr left_mem) (mem_literals.mpr right_mem)
    (Prod.ext file offset)

end Node

end Relock
