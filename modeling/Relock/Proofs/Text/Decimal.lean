import Std.Data.String.ToNat

/-!
# Numbers within texts

Numbers are written with decimal digits, so a number that is followed by something else than a digit
can be read off from a text.
-/

namespace Relock

theorem isDigit_of_mem_toString {number : Nat} {char : Char}
    (member : char ∈ (toString number).toList) : char.isDigit = true := by
  have digit : char ∈ Nat.toDigits 10 number := Nat.toList_repr ▸ member
  exact Nat.isDigit_of_mem_toDigits (by decide) (by decide) digit

/-- A number begins with a digit. -/
theorem exists_digit_of_toString (number : Nat) :
    ∃ digit rest, (toString number).toList = digit :: rest ∧ digit.isDigit = true := by
  cases digits : (toString number).toList with
  | nil => exact absurd (Nat.toList_repr.symm.trans digits) Nat.toDigits_ne_nil
  | cons digit rest =>
      refine ⟨digit, rest, rfl, @isDigit_of_mem_toString number digit ?_⟩
      rw [digits]
      exact List.mem_cons_self

/-- Digits that are followed by something else are told from it. -/
theorem digits_append_inj {left right leftRest rightRest : List Char}
    (left_digits : ∀ char ∈ left, char.isDigit = true)
    (right_digits : ∀ char ∈ right, char.isDigit = true)
    (left_ends : leftRest.head?.all fun char => !char.isDigit)
    (right_ends : rightRest.head?.all fun char => !char.isDigit)
    (same : left ++ leftRest = right ++ rightRest) : left = right ∧ leftRest = rightRest := by
  have taken : ∀ {digits rest : List Char}, (∀ char ∈ digits, char.isDigit = true) →
      (rest.head?.all fun char => !char.isDigit) = true →
      (digits ++ rest).takeWhile Char.isDigit = digits := by
    intro digits rest all_digits ends
    rw [List.takeWhile_append_of_pos all_digits]
    cases rest with
    | nil => rw [List.takeWhile_nil, List.append_nil]
    | cons char rest =>
        have other : char.isDigit = false := by simpa using ends
        rw [List.takeWhile_cons_of_neg (by simp [other]), List.append_nil]
  have digits_eq : left = right := by
    rw [← taken left_digits left_ends, same, taken right_digits right_ends]
  rw [digits_eq] at same
  exact ⟨digits_eq, List.append_cancel_left same⟩

/-- A number that is followed by something else than a digit is told from it. -/
theorem toString_append_inj {left right : Nat} {leftRest rightRest : List Char}
    (left_ends : leftRest.head?.all fun char => !char.isDigit)
    (right_ends : rightRest.head?.all fun char => !char.isDigit)
    (same : (toString left).toList ++ leftRest = (toString right).toList ++ rightRest) :
    left = right ∧ leftRest = rightRest := by
  obtain ⟨texts, rests⟩ := digits_append_inj (fun _ => isDigit_of_mem_toString)
    (fun _ => isDigit_of_mem_toString) left_ends right_ends same
  exact ⟨Nat.repr_injective (String.toList_inj.mp texts), rests⟩

/-- A number at the end of a text is told from what comes before, up to a dot. -/
theorem append_dot_toString_inj {left right : String} {leftNumber rightNumber : Nat}
    (same : left ++ "." ++ toString leftNumber = right ++ "." ++ toString rightNumber) :
    left = right ∧ leftNumber = rightNumber := by
  have texts := congrArg (fun text : String => text.toList.reverse) same
  simp only [String.toList_append, List.reverse_append] at texts
  have digits : ∀ number : Nat, ∀ char ∈ (toString number).toList.reverse, char.isDigit = true :=
    fun _ _ member => isDigit_of_mem_toString (List.mem_reverse.mp member)
  obtain ⟨numbers, fronts⟩ := digits_append_inj (digits _) (digits _) rfl rfl texts
  have front_eq := List.append_cancel_left fronts
  exact ⟨String.toList_inj.mp (List.reverse_inj.mp front_eq),
    Nat.repr_injective (String.toList_inj.mp (List.reverse_inj.mp numbers))⟩

end Relock
