/- # The text of a ticket — 32 digits, a hyphen, a number

A ticket goes to an external program as a text, so two tickets have to differ
there too.  They do, if the texts of families differ and are all of one length
(`FamilySpelling`): the hyphen is then always the 33rd character, whatever
stands on either side of it, and the number is the only one with its digits.
Hexadecimal digits, as many as any family needs, are such a spelling.
-/
import Mathlib.Algebra.Group.Nat.Defs
import Mathlib.Logic.Function.Basic
import ProductLine.Engine.Ticket

namespace ProductLine

/-! ## Hexadecimal digits of a fixed width -/

@[simp] theorem length_hexDigits (n width : Nat) : (hexDigits n width).length = width := by
  induction width generalizing n with
  | zero => rfl
  | succ width ih => rw [hexDigits, List.length_append, ih, List.length_singleton]

theorem digitChar_inj {a b : Nat} (ha : a < 16) (hb : b < 16)
    (h : Nat.digitChar a = Nat.digitChar b) : a = b := by
  have distinct : ∀ x < 16, ∀ y < 16, Nat.digitChar x = Nat.digitChar y → x = y := by decide
  exact distinct a ha b hb h

/-- A number for which the width is enough is the only one with its digits. -/
theorem hexDigits_inj {m n width : Nat} (hm : m < 16 ^ width) (hn : n < 16 ^ width)
    (h : hexDigits m width = hexDigits n width) : m = n := by
  induction width generalizing m n with
  | zero => omega
  | succ width ih =>
    rw [hexDigits, hexDigits] at h
    obtain ⟨front, last⟩ := List.append_inj' h rfl
    have quotients : m / 16 = n / 16 := by
      rw [Nat.pow_succ] at hm hn
      exact ih (Nat.div_lt_of_lt_mul (by omega)) (Nat.div_lt_of_lt_mul (by omega)) front
    have remainders : m % 16 = n % 16 :=
      digitChar_inj (Nat.mod_lt m (by decide)) (Nat.mod_lt n (by decide))
        (List.singleton_inj.mp last)
    omega

/-! ## Tickets -/

theorem toList_toString (n : Nat) : (toString n).toList = Nat.toDigits 10 n := by
  rw [Nat.toString_eq_repr, Nat.toList_repr]

theorem toDigits_inj {m n : Nat} (h : Nat.toDigits 10 m = Nat.toDigits 10 n) : m = n := by
  have values := congrArg (fun digits => Nat.ofDigitChars 10 digits 0) h
  simpa using values

theorem Ticket.toList_textBy (spell : FamilyId → String) (t : Ticket) :
    (t.textBy spell).toList =
      (spell t.family).toList ++ '-' :: Nat.toDigits 10 t.sequence.toNat := by
  rw [textBy, String.toList_append, String.toList_append, toList_toString, List.append_assoc]
  rfl

/-- What tickets rely on of a spelling of families: another family has another text, and all texts
are as long as an identifier of 128 bits is in hexadecimal digits. -/
structure FamilySpelling (spell : FamilyId → String) : Prop where
  injective : Function.Injective spell
  width : ∀ family, (spell family).length = 32

/-- Tickets with the same text are the same. -/
theorem FamilySpelling.textBy_injective {spell : FamilyId → String} (h : FamilySpelling spell) :
    Function.Injective (Ticket.textBy spell) := by
  rintro ⟨family, sequence⟩ ⟨family', sequence'⟩ same
  have characters := congrArg String.toList same
  rw [Ticket.toList_textBy, Ticket.toList_textBy] at characters
  have widths : (spell family).toList.length = (spell family').toList.length := by
    rw [String.length_toList, String.length_toList, h.width, h.width]
  obtain ⟨spelled, rest⟩ := List.append_inj characters widths
  have families : family = family' := h.injective (String.toList_inj.mp spelled)
  have sequences : sequence.toNat = sequence'.toNat := toDigits_inj (List.cons.inj rest).2
  rw [families, UInt64.toNat_inj.mp sequences]

theorem familySpelling_familyText : FamilySpelling familyText where
  injective family family' same := by
    have digits := congrArg String.toList same
    rw [familyText, familyText, String.toList_ofList, String.toList_ofList] at digits
    exact BitVec.eq_of_toNat_eq (hexDigits_inj family.isLt family'.isLt digits)
  width family := by
    rw [familyText, String.length_ofList, length_hexDigits]

end ProductLine
