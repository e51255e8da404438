import Relock.Proofs.Callee.Key

/-!
# Keys and targets

Declarations are found by keys, and a search knows by them where it has been. So a key has to stand
for one target: where names have no colons and receivers are named types, callees have the same key
exactly if they run the same code.
-/

namespace Relock

namespace TypeRef

/-- The type of pointers to a type, a number of times over. -/
def pointers : (count : Nat) → TypeRef → TypeRef
  | 0, type => type
  | count + 1, type => pointer (pointers count type)

theorem base_pointers (count : Nat) (ref : NamedRef) :
    (pointers count (named ref)).base = named ref := by
  induction count with
  | zero => rfl
  | succ count ih => exact ih

/-- A named type is the base of its pointers and of nothing else. -/
theorem base_eq_named_iff {type : TypeRef} {ref : NamedRef} :
    type.base = named ref ↔ ∃ count, type = pointers count (named ref) := by
  constructor
  · intro base_eq
    induction type with
    | pointer target ih =>
        obtain ⟨count, rfl⟩ := ih base_eq
        exact ⟨count + 1, rfl⟩
    | _ => exact ⟨0, base_eq⟩
  · rintro ⟨count, rfl⟩
    exact base_pointers count ref

end TypeRef

namespace Callee

/-- The callees run the same code. Methods do so for values of a type and for pointers to them. -/
inductive SharesTarget : Callee → Callee → Prop
  | function (package : PackageId) (name : String) :
      SharesTarget (.function package name) (.function package name)
  | method (package : PackageId) (name : String) (ref : NamedRef) (outer inner : Nat)
      (shown display : String) :
      SharesTarget (.method package name (.pointers outer (.named ref)) shown)
        (.method package name (.pointers inner (.named ref)) display)
  | value (package other : PackageId) (name : String) (symbol : SymbolId) :
      SharesTarget (.value package name symbol) (.value other name symbol)
  | literal (file offset line another : Nat) :
      SharesTarget (.literal file offset line) (.literal file offset another)

/-- The name has no colon, and the receiver of a method is a named type under its pointers. -/
structure Plain (callee : Callee) : Prop where
  name : ':' ∉ callee.name.toList
  receiver : ∀ type ∈ callee.receiver?, ∃ ref, type.base = .named ref

variable {left right : Callee}

theorem SharesTarget.coincide (shares : left.SharesTarget right) : left.Coincide right := by
  cases shares with
  | method package name ref outer inner shown display =>
      refine ⟨rfl, ?_, rfl⟩
      rw [typeKey, typeKey, TypeRef.base_pointers, TypeRef.base_pointers]
  | function | value | literal => exact ⟨rfl, rfl⟩

theorem Coincide.sharesTarget (coincide : left.Coincide right) (left_plain : left.Plain)
    (right_plain : right.Plain) : left.SharesTarget right := by
  cases left <;> cases right <;> try exact coincide.elim
  case method package name receiver shown other text type display =>
    obtain ⟨rfl, types, rfl⟩ := coincide
    obtain ⟨ref, base_eq⟩ := left_plain.receiver receiver rfl
    obtain ⟨base, type_base⟩ := right_plain.receiver type rfl
    cases typeKey_named_inj base_eq type_base types
    obtain ⟨outer, rfl⟩ := TypeRef.base_eq_named_iff.mp base_eq
    obtain ⟨inner, rfl⟩ := TypeRef.base_eq_named_iff.mp type_base
    exact .method package name ref outer inner shown display
  all_goals
    obtain ⟨rfl, rfl⟩ := coincide
    constructor

/-- Callees have the same key exactly if they run the same code: functions of one package and name;
methods of one package and name for one named type, under any number of pointers; variables that are
one entity; literals that begin at one place. -/
theorem key_eq_iff_sharesTarget (left_plain : left.Plain) (right_plain : right.Plain) :
    left.key = right.key ↔ left.SharesTarget right := by
  rw [key_eq_iff_coincide left_plain.name right_plain.name]
  exact ⟨fun coincide => coincide.sharesTarget left_plain right_plain, SharesTarget.coincide⟩

/-- The method `Get` of a type `Store` has one key for values and for pointers to pointers, and the
function `Get` of the same package has another. -/
theorem key_of_pointers_to_pointers :
    let store : TypeRef := .named ⟨2, "Store"⟩
    (method 2 "Get" (.pointer (.pointer store)) "Store").key = (method 2 "Get" store "S").key ∧
      (method 2 "Get" store "S").key ≠ (function 2 "Get").key := by
  intro store
  have free : ':' ∉ "Get".toList := by decide
  have plain (type : TypeRef) (base_eq : type.base = store) (shown : String) :
      (method 2 "Get" type shown).Plain :=
    ⟨free, fun _ same => ⟨_, Option.mem_some_iff.mp same ▸ base_eq⟩⟩
  have alone : (function 2 "Get").Plain := ⟨free, by simp [receiver?]⟩
  refine ⟨(key_eq_iff_sharesTarget (plain _ rfl _) (plain _ rfl _)).mpr
    (.method 2 "Get" ⟨2, "Store"⟩ 2 0 "Store" "S"), fun same => ?_⟩
  exact ((key_eq_iff_sharesTarget (plain _ rfl _) alone).mp same).coincide

end Callee

end Relock
