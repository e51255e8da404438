import Relock.Lock.Callee
import Relock.Proofs.Text.Decimal

/-!
# Reading a callee off its key

A key begins with the number of a package and ends with a name. The number ends before the first
colon, and a name without colons begins after the last one, so what stands between is known too.
-/

namespace Relock

/-- What follows the last separator of a text is told from what comes before it. -/
theorem last_separator_inj {separator : Char} {front back left right : List Char}
    (left_free : separator ∉ left) (right_free : separator ∉ right)
    (same : front ++ separator :: left = back ++ separator :: right) :
    front = back ∧ left = right := by
  -- A front that is longer than the other would put a separator into the shorter one's end.
  have within {middle short long : List Char} (free : separator ∉ short)
      (split : separator :: short = middle ++ separator :: long) : middle = [] ∧ short = long := by
    cases middle with
    | nil => exact ⟨rfl, List.tail_eq_of_cons_eq split⟩
    | cons char middle =>
        have short_eq : short = middle ++ separator :: long := List.tail_eq_of_cons_eq split
        exact absurd (by simp [short_eq]) free
  rcases List.append_eq_append_iff.mp same with ⟨middle, back_eq, split⟩ | ⟨middle, front_eq, split⟩
  · obtain ⟨rfl, ends⟩ := within left_free split
    exact ⟨by simp [back_eq], ends⟩
  · obtain ⟨rfl, ends⟩ := within right_free split
    exact ⟨by simp [front_eq], ends.symm⟩

/-- A number before colons is told from what follows them. -/
theorem toString_colons_inj {left right : Nat} {leftRest rightRest : List Char}
    (same : (toString left).toList ++ ':' :: ':' :: leftRest =
      (toString right).toList ++ ':' :: ':' :: rightRest) :
    left = right ∧ leftRest = rightRest := by
  obtain ⟨numbers, rests⟩ := toString_append_inj rfl rfl same
  simp only [List.cons.injEq, true_and] at rests
  exact ⟨numbers, rests⟩

namespace Callee

variable {package other : PackageId} {name text : String} {receiver type : TypeRef}
  {shown display : String} {callee left right : Callee} {ref : NamedRef}

theorem toList_key_function (package : PackageId) (name : String) :
    (function package name).key.toList =
      (toString package).toList ++ ':' :: ':' :: name.toList := by
  simp [key, String.toList_append]

theorem toList_key_method (package : PackageId) (name : String) (receiver : TypeRef)
    (shown : String) : (method package name receiver shown).key.toList =
      (toString package).toList ++ ':' :: ':' ::
        ((typeKey receiver).toList ++ ':' :: ':' :: name.toList) := by
  simp [key, String.toList_append]

theorem key_function_inj (same : (function package name).key = (function other text).key) :
    package = other ∧ name = text := by
  have texts := congrArg String.toList same
  rw [toList_key_function, toList_key_function] at texts
  exact (toString_colons_inj texts).imp_right String.toList_inj.mp

/-- A function whose name has no colon is told from methods. -/
theorem key_function_ne_method (free : ':' ∉ name.toList) :
    (function package name).key ≠ (method other text receiver shown).key := by
  intro same
  have texts := congrArg String.toList same
  rw [toList_key_function, toList_key_method] at texts
  exact free (by simp [(toString_colons_inj texts).2])

theorem exists_toList_key (declared : callee.isDeclared = true) :
    ∃ package rest, callee.package? = some package ∧
      callee.key.toList = (toString package).toList ++ ':' :: rest := by
  cases callee with
  | function package name => exact ⟨package, _, rfl, toList_key_function package name⟩
  | method package name receiver shown =>
      exact ⟨package, _, rfl, toList_key_method package name receiver shown⟩
  | value | literal => cases declared

/-- A function or method does not have a key that begins with a letter. -/
theorem key_ne_of_letter {other : Callee} (declared : callee.isDeclared = true) {letter : Char}
    {rest : List Char} (begins : other.key.toList = letter :: rest)
    (no_digit : letter.isDigit = false) : callee.key ≠ other.key := by
  intro same
  obtain ⟨package, ends, -, key_eq⟩ := exists_toList_key declared
  obtain ⟨digit, digits, package_eq, is_digit⟩ := exists_digit_of_toString package
  rw [same, begins, package_eq, List.cons_append] at key_eq
  obtain ⟨rfl, -⟩ := List.cons.inj key_eq
  rw [no_digit] at is_digit
  cases is_digit

theorem toList_key_value (package : PackageId) (name : String) (symbol : SymbolId) :
    (value package name symbol).key.toList =
      'v' :: ("alue#".toList ++ ((toString symbol).toList ++ ':' :: ':' :: name.toList)) := by
  simp [key]

theorem toList_key_literal (file offset line : Nat) :
    (literal file offset line).key.toList =
      'l' :: ("iteral#" ++ (toString file ++ (":" ++ toString offset))).toList := by
  simp [key]

theorem key_ne_value (declared : callee.isDeclared = true) {symbol : SymbolId} :
    callee.key ≠ (value other text symbol).key :=
  key_ne_of_letter declared (toList_key_value other text symbol) rfl

theorem key_ne_literal (declared : callee.isDeclared = true) (file offset line : Nat) :
    callee.key ≠ (literal file offset line).key :=
  key_ne_of_letter declared (toList_key_literal file offset line) rfl

theorem key_value_ne_literal {symbol file offset line : Nat} :
    (value package name symbol).key ≠ (literal file offset line).key := by
  intro same
  have texts := congrArg String.toList same
  rw [toList_key_value, toList_key_literal, List.cons.injEq] at texts
  exact absurd texts.1 (by decide)

/-- The keys of variables tell the variables and their names. -/
theorem key_value_inj {symbol another : SymbolId}
    (same : (value package name symbol).key = (value other text another).key) :
    symbol = another ∧ name = text := by
  have texts := congrArg String.toList same
  simp only [toList_key_value, List.cons.injEq, true_and, List.append_cancel_left_eq] at texts
  exact (toString_colons_inj texts).imp_right String.toList_inj.mp

/-- The keys of literals tell the files and the places where they begin. -/
theorem key_literal_inj {file other offset place line another : Nat}
    (same : (literal file offset line).key = (literal other place another).key) :
    file = other ∧ offset = place := by
  have texts := congrArg String.toList same
  simp only [key, String.append_assoc, String.toList_append, List.append_cancel_left_eq] at texts
  obtain ⟨files, offsets⟩ := toString_append_inj rfl rfl texts
  rw [List.append_cancel_left_eq, String.toList_inj] at offsets
  exact ⟨files, Nat.repr_injective offsets⟩

/-- The key of a function or method tells its package. -/
theorem package?_eq_of_key_eq (left_declared : left.isDeclared = true)
    (right_declared : right.isDeclared = true) (same : left.key = right.key) :
    left.package? = right.package? := by
  obtain ⟨package, rest, package_eq, text⟩ := exists_toList_key left_declared
  obtain ⟨other, others, other_eq, other_text⟩ := exists_toList_key right_declared
  rw [same, other_text] at text
  obtain ⟨rfl, -⟩ := toString_append_inj rfl rfl text
  rw [package_eq, other_eq]

/-- Methods whose names have no colons are told apart by their packages, types and names. -/
theorem key_method_inj (name_free : ':' ∉ name.toList) (text_free : ':' ∉ text.toList)
    (same : (method package name receiver shown).key = (method other text type display).key) :
    package = other ∧ typeKey receiver = typeKey type ∧ name = text := by
  have texts := congrArg String.toList same
  rw [toList_key_method, toList_key_method] at texts
  obtain ⟨packages, rests⟩ := toString_colons_inj texts
  -- The last colon stands right before the name, and another one right before that.
  have shifted : ((typeKey receiver).toList ++ [':']) ++ ':' :: name.toList =
      ((typeKey type).toList ++ [':']) ++ ':' :: text.toList := by
    simpa using rests
  obtain ⟨fronts, names⟩ := last_separator_inj name_free text_free shifted
  exact ⟨packages, String.toList_inj.mp (List.append_cancel_right fronts),
    String.toList_inj.mp names⟩

/-- The callees differ at most in what keys do not show. -/
def Coincide : Callee → Callee → Prop
  | function package name, function other text => package = other ∧ name = text
  | method package name receiver _, method other text type _ =>
      package = other ∧ typeKey receiver = typeKey type ∧ name = text
  | value _ name symbol, value _ text another => symbol = another ∧ name = text
  | literal file offset _, literal other place _ => file = other ∧ offset = place
  | _, _ => False

/-- Callees whose names have no colons have one key exactly if they differ in nothing that keys
show. -/
theorem key_eq_iff_coincide (left_free : ':' ∉ left.name.toList)
    (right_free : ':' ∉ right.name.toList) : left.key = right.key ↔ left.Coincide right := by
  constructor
  · intro same
    cases left with
    | function =>
        cases right with
        | function => exact key_function_inj same
        | method => exact key_function_ne_method left_free same
        | value => exact key_ne_value rfl same
        | literal => exact key_ne_literal rfl _ _ _ same
    | method =>
        cases right with
        | function => exact key_function_ne_method right_free same.symm
        | method => exact key_method_inj left_free right_free same
        | value => exact key_ne_value rfl same
        | literal => exact key_ne_literal rfl _ _ _ same
    | value =>
        cases right with
        | value => exact key_value_inj same
        | literal => exact key_value_ne_literal same
        | function | method => exact key_ne_value rfl same.symm
    | literal =>
        cases right with
        | value => exact key_value_ne_literal same.symm
        | literal => exact key_literal_inj same
        | function | method => exact key_ne_literal rfl _ _ _ same.symm
  · intro coincide
    cases left <;> cases right <;> try exact coincide.elim
    case method =>
      obtain ⟨rfl, types, rfl⟩ := coincide
      rw [key, key, types]
    all_goals
      obtain ⟨rfl, rfl⟩ := coincide
      rfl

/-! ## Types within keys -/

theorem toList_typeKey_of_named (named : receiver.base = .named ref) :
    (typeKey receiver).toList = (toString ref.package).toList ++ '.' :: ref.name.toList := by
  simp [typeKey, named, String.toList_append]

/-- The key of a named type tells the type. -/
theorem typeKey_named_inj {base : NamedRef} (named : receiver.base = .named ref)
    (type_named : type.base = .named base) (same : typeKey receiver = typeKey type) :
    ref = base := by
  have texts := congrArg String.toList same
  rw [toList_typeKey_of_named named, toList_typeKey_of_named type_named] at texts
  obtain ⟨packages, rests⟩ := toString_append_inj rfl rfl texts
  simp only [List.cons.injEq, true_and] at rests
  cases ref
  cases base
  exact NamedRef.mk.injEq .. ▸ ⟨packages, String.toList_inj.mp rests⟩

/-- The key of a named type begins with a digit. -/
theorem exists_digit_of_typeKey (named : receiver.base = .named ref) :
    ∃ digit rest, (typeKey receiver).toList = digit :: rest ∧ digit.isDigit = true := by
  obtain ⟨digit, rest, digits, is_digit⟩ := exists_digit_of_toString ref.package
  refine ⟨digit, rest ++ '.' :: ref.name.toList, ?_, is_digit⟩
  rw [toList_typeKey_of_named named, digits, List.cons_append]

end Callee

end Relock
