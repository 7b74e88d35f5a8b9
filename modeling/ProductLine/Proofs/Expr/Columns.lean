/- # Columns — where the tokens of a text stand

A column counts characters from 1.  `TokenAt` says of a text alone which token
stands in a column: the text is cut there, the two parts spell the tokens on
either side, and the right one starts with the token and not with white space.
That the parts together spell all the tokens keeps the cut out of the middle of
a name.  The scanner places its tokens in these columns (`tokenAt_of_scan`), and
the character that it refuses is the first one outside of the alphabet
(`exists_of_scan_eq_error`).
-/
import ProductLine.Proofs.Expr.Lexis

namespace ProductLine

open Text (isBlank)

/-- In the text the token stands in the column, after the tokens `before` and in front of those
`after` it. -/
def TokenAt (cs : List Char) (column : Nat) (before : List Token) (t : Token)
    (after : List Token) : Prop :=
  Lexes cs (before ++ t :: after) ∧ ∃ left right, cs = left ++ right ∧ column = left.length + 1 ∧
    (∀ c ∈ right.head?, isBlank c = false) ∧ Lexes left before ∧ Lexes right (t :: after)

/-- The character is the first one of the text that is outside of the alphabet, and stands in the
column. -/
def ForeignAt (cs : List Char) (column : Nat) : Prop :=
  ∃ left c right, cs = left ++ c :: right ∧ column = left.length + 1 ∧
    (∀ d ∈ left, InAlphabet d) ∧ ¬ InAlphabet c

variable {cs : List Char} {column : Nat} {before after : List Token} {t : Token}

/-- A token starts with one of the characters of the text. -/
theorem TokenAt.bounds (h : TokenAt cs column before t after) : 1 ≤ column ∧ column ≤ cs.length := by
  obtain ⟨-, left, right, rfl, rfl, -, -, hright⟩ := h
  have nonempty : right ≠ [] := by
    rintro rfl
    cases hright.unique .nil
  have := List.length_pos_iff.mpr nonempty
  rw [List.length_append]
  omega

theorem ForeignAt.bounds (h : ForeignAt cs column) : 1 ≤ column ∧ column ≤ cs.length := by
  obtain ⟨left, c, right, rfl, rfl, -, -⟩ := h
  rw [List.length_append, List.length_cons]
  omega

/-! ## The scanner's columns -/

/-- The places that the scanner gives to tokens are cuts of the text between them. -/
theorem exists_cut_of_scan {placed before after : List Placed} {t : Placed}
    (h : scan column cs = .ok placed) (hplaced : placed = before ++ t :: after) :
    ∃ left right, cs = left ++ right ∧ t.column = column + left.length ∧
      (∀ c ∈ right.head?, isBlank c = false) ∧ Lexes left (before.map Placed.token) ∧
      Lexes right ((t :: after).map Placed.token) := by
  have whole := lexes_of_scan h
  fun_induction scan column cs generalizing placed before with
  | case1 =>
    cases h
    exact absurd hplaced.symm (List.append_ne_nil_of_right_ne_nil _ (List.cons_ne_nil _ _))
  | case2 column c rest hblank ih =>
    obtain ⟨left, right, rfl, hcolumn, ink, hleft, hright⟩ := ih h hplaced (lexes_of_scan h)
    exact ⟨c :: left, right, rfl, by rw [hcolumn, List.length_cons]; omega, ink,
      .blank hblank hleft, hright⟩
  | case3 column c rest hblank token hsymbol ih =>
    obtain ⟨us, hus, rfl⟩ := map_cons_eq_ok h
    have spells := ofSymbol?_eq_some_iff.mp hsymbol
    cases before with
    | nil =>
      obtain ⟨rfl, rfl⟩ := List.cons.inj hplaced
      refine ⟨[], c :: rest, rfl, rfl, ?_, .nil, whole⟩
      rintro d ⟨⟩
      exact isBlank_of_spells spells
    | cons first before =>
      obtain ⟨rfl, others⟩ := List.cons.inj hplaced
      obtain ⟨left, right, rfl, hcolumn, ink, hleft, hright⟩ := ih hus others (lexes_of_scan hus)
      exact ⟨c :: left, right, rfl, by rw [hcolumn, List.length_cons]; omega, ink,
        .symbol spells hleft, hright⟩
  | case4 column c rest hblank hsymbol hletter column' =>
    rename_i ih
    obtain ⟨us, hus, rfl⟩ := map_cons_eq_ok h
    cases before with
    | nil =>
      obtain ⟨rfl, rfl⟩ := List.cons.inj hplaced
      refine ⟨[], c :: rest, rfl, rfl, ?_, .nil, whole⟩
      rintro d ⟨⟩
      exact isBlank_of_isIdentifierChar hletter
    | cons first before =>
      obtain ⟨rfl, others⟩ := List.cons.inj hplaced
      obtain ⟨left, right, cut, hcolumn, ink, hleft, hright⟩ := ih hus others (lexes_of_scan hus)
      have run : (Feature.ofRun c rest hletter).name.toList.length =
          1 + (rest.takeWhile isIdentifierChar).length := by
        rw [Feature.ofRun, String.toList_ofList, List.length_cons, Nat.add_comm]
      refine ⟨(Feature.ofRun c rest hletter).name.toList ++ left, right, ?_, ?_, ink,
        .name (fun d hd => ?_) hleft, hright⟩
      · rw [List.append_assoc, ← cut, toList_ofRun_append]
      · rw [hcolumn, List.length_append, run]
        omega
      · apply head?_dropWhile_identifier rest d
        rw [cut, List.head?_append, Option.mem_def.mp hd]
        rfl
  | case5 => cases h

theorem tokenAt_of_scan {placed before after : List Placed} {t : Placed}
    (h : scan 1 cs = .ok placed) (hplaced : placed = before ++ t :: after) :
    TokenAt cs t.column (before.map Placed.token) t.token (after.map Placed.token) := by
  obtain ⟨left, right, cut, hcolumn, ink, hleft, hright⟩ := exists_cut_of_scan h hplaced
  have whole := lexes_of_scan h
  rw [hplaced, List.map_append] at whole
  exact ⟨whole, left, right, cut, by omega, ink, hleft, hright⟩

/-- The scanner stops at the first foreign character. -/
theorem exists_of_scan_eq_error {fault : SyntaxFault} (h : scan column cs = .error fault) :
    ∃ left c right, cs = left ++ c :: right ∧
      fault = ⟨column + left.length, .unexpectedCharacter c⟩ ∧ (∀ d ∈ left, InAlphabet d) ∧
      ¬ InAlphabet c := by
  fun_induction scan column cs with
  | case1 => cases h
  | case2 column c rest hblank ih =>
    obtain ⟨left, d, right, rfl, rfl, native, foreign⟩ := ih h
    refine ⟨c :: left, d, right, rfl, ?_, List.forall_mem_cons.mpr ⟨.inl hblank, native⟩, foreign⟩
    rw [List.length_cons, Nat.add_right_comm, Nat.add_assoc]
  | case3 column c rest hblank token hsymbol ih =>
    obtain ⟨left, d, right, rfl, rfl, native, foreign⟩ := ih (eq_error_of_map_cons h)
    have symbol := mem_symbols_of_spells (ofSymbol?_eq_some_iff.mp hsymbol)
    refine ⟨c :: left, d, right, rfl, ?_,
      List.forall_mem_cons.mpr ⟨.inr (.inl symbol), native⟩, foreign⟩
    rw [List.length_cons, Nat.add_right_comm, Nat.add_assoc]
  | case4 column c rest hblank hsymbol hletter column' =>
    rename_i ih
    obtain ⟨left, d, right, cut, rfl, native, foreign⟩ := ih (eq_error_of_map_cons h)
    have letters : ∀ x ∈ rest.takeWhile isIdentifierChar, InAlphabet x := fun x hx =>
      .inr (.inr (List.all_eq_true.mp List.all_takeWhile x hx))
    refine ⟨c :: (rest.takeWhile isIdentifierChar ++ left), d, right, ?_, ?_,
      List.forall_mem_cons.mpr ⟨.inr (.inr hletter), List.forall_mem_append.mpr
        ⟨letters, native⟩⟩, foreign⟩
    · rw [List.cons_append, List.append_assoc, ← cut, List.takeWhile_append_dropWhile]
    · rw [List.length_cons, List.length_append]
      show SyntaxFault.mk (column + 1 + _ + _) _ = _
      congr 1
      omega
  | case5 column c rest hblank hsymbol hletter =>
    cases h
    exact ⟨[], c, rest, rfl, rfl, List.forall_mem_nil _, not_inAlphabet hblank hsymbol hletter⟩

end ProductLine
