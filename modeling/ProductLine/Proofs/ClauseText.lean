/- # Texts of clauses — what a clause's text says

A model keeps its constraints as texts, and a reader of the model has only
these.  Here a text is taken apart again: at the bars between the literals,
and each piece at its polarity.  No literal's text has a space in it, so the
bars of a clause's text are those that its printing put there, and the
clause comes back as it was (`ofText?_text`).  The empty clause is the
exception: its text is empty, and nothing is not a literal.
-/
import ProductLine.Clause
import ProductLine.Proofs.Expr.Lexis
import ProductLine.Proofs.Text.Words

namespace ProductLine

theorem Feature.isBlank_of_mem_name {f : Feature} {c : Char} (h : c ∈ f.name.toList) :
    Text.isBlank c = false :=
  isBlank_of_isIdentifierChar (isIdentifierChar_of_mem_name h)

/-! ## Literals -/

namespace Literal

theorem splitSign_text (l : Literal) : splitSign l.text = (l.negated, l.feature.name) := by
  obtain ⟨f, negated⟩ := l
  cases negated with
  | true => simp [text, splitSign]
  | false =>
    simp only [text, splitSign, Bool.false_eq_true, if_false]
    split
    case h_1 name heq =>
      have hmem : '!' ∈ f.name.toList := heq ▸ List.mem_cons_self
      exact absurd (Feature.isIdentifierChar_of_mem_name hmem) (by decide)
    case h_2 => rw [String.ofList_toList]

theorem ofText?_text (l : Literal) : ofText? l.text = some l := by
  rw [ofText?, splitSign_text, Feature.ofName?_name]
  rfl

theorem space_notMem_text (l : Literal) : ' ' ∉ l.text.toList := by
  have notName : ' ' ∉ l.feature.name.toList := fun h =>
    absurd (Feature.isIdentifierChar_of_mem_name h) (by decide)
  unfold text
  split
  · rw [String.toList_append, List.mem_append, not_or]
    exact ⟨by decide, notName⟩
  · exact notName

/-- A name, or `!` and a name. -/
theorem mem_text {l : Literal} {c : Char} (h : c ∈ l.text.toList) :
    c = '!' ∨ isIdentifierChar c = true := by
  unfold text at h
  split at h
  · rw [String.toList_append, List.mem_append] at h
    exact h.imp List.mem_singleton.mp Feature.isIdentifierChar_of_mem_name
  · exact .inr (Feature.isIdentifierChar_of_mem_name h)

theorem isBlank_of_mem_text {l : Literal} {c : Char} (h : c ∈ l.text.toList) :
    Text.isBlank c = false := by
  rcases mem_text h with rfl | letter
  · decide
  · exact isBlank_of_isIdentifierChar letter

theorem text_ne_nil (l : Literal) : l.text.toList ≠ [] := by
  unfold text
  split
  · rw [String.toList_append]
    exact List.cons_ne_nil _ _
  · exact l.feature.toList_name_ne_nil

end Literal

/-! ## Clauses -/

namespace Clause

/-- The pieces of a text between its bars, each of which has a space on either side. -/
def pieces : List Char → List (List Char)
  | [] => [[]]
  | ' ' :: '|' :: ' ' :: rest => [] :: pieces rest
  | c :: rest =>
    match pieces rest with
    | [] => [[c]]
    | piece :: others => (c :: piece) :: others

/-- The clause whose literals are the pieces of the text, if each of them is one. -/
def ofText? (text : String) : Option Clause :=
  ((pieces text.toList).mapM fun piece => Literal.ofText? (String.ofList piece)).map Clause.mk

theorem pieces_cons {c : Char} (h : c ≠ ' ') {rest piece : List Char} {others : List (List Char)}
    (hrest : pieces rest = piece :: others) : pieces (c :: rest) = (c :: piece) :: others := by
  rw [pieces, hrest]
  rintro _ rfl
  exact absurd rfl h

theorem pieces_append {word : List Char} (h : ' ' ∉ word) {rest piece : List Char}
    {others : List (List Char)} (hrest : pieces rest = piece :: others) :
    pieces (word ++ rest) = (word ++ piece) :: others := by
  induction word with
  | nil => exact hrest
  | cons c word ih =>
    rw [List.mem_cons, not_or] at h
    exact pieces_cons (Ne.symm h.1) (ih h.2)

/-- Words without spaces come back from the text that puts bars between them. -/
theorem pieces_intercalate {words : List (List Char)} (nonempty : words ≠ [])
    (h : ∀ word ∈ words, ' ' ∉ word) :
    pieces (" | ".toList.intercalate words) = words := by
  induction words with
  | nil => exact absurd rfl nonempty
  | cons word words ih =>
    obtain ⟨hword, hwords⟩ := List.forall_mem_cons.1 h
    cases words with
    | nil =>
      have single : pieces (word ++ []) = [word ++ []] := pieces_append hword rfl
      simpa using single
    | cons next words =>
      have hrest : pieces (" | ".toList ++ " | ".toList.intercalate (next :: words)) =
          [] :: next :: words :=
        congrArg (List.cons []) (ih (List.cons_ne_nil _ _) hwords)
      have all := pieces_append hword hrest
      simpa using all

/-- The characters of a clause's text: those of its literals and of the bars. -/
theorem mem_text {c : Clause} {x : Char} (h : x ∈ c.text.toList) :
    x ∈ [' ', '|', '!'] ∨ isIdentifierChar x = true := by
  rw [text, String.toList_intercalate, List.map_map] at h
  rcases Text.mem_of_mem_intercalate h with hbar | ⟨word, hword, hx⟩
  · have bars : " | ".toList ⊆ [' ', '|', '!'] := by decide
    exact .inl (bars hbar)
  · obtain ⟨l, -, rfl⟩ := List.mem_map.mp hword
    rcases Literal.mem_text hx with rfl | letter
    · exact .inl (by decide)
    · exact .inr letter

theorem spaced_text (c : Clause) : Text.Spaced c.text.toList := by
  rw [text, String.toList_intercalate, List.map_map]
  refine Text.spaced_intercalate (Text.spaced_of_all rfl) fun word hword => ?_
  obtain ⟨l, -, rfl⟩ := List.mem_map.mp hword
  exact Text.spaced_of_forall fun _ => Literal.isBlank_of_mem_text

theorem edged_text (c : Clause) : Text.Edged c.text.toList := by
  rw [text, String.toList_intercalate, List.map_map]
  refine Text.edged_intercalate _ fun word hword => ?_
  obtain ⟨l, -, rfl⟩ := List.mem_map.mp hword
  exact ⟨l.text_ne_nil, Text.edged_of_forall fun _ => Literal.isBlank_of_mem_text⟩

/-- A clause with literals is what its text says. -/
theorem ofText?_text {c : Clause} (h : c.literals ≠ []) : ofText? c.text = some c := by
  obtain ⟨ls⟩ := c
  have split : pieces (text ⟨ls⟩).toList = ls.map fun l => l.text.toList := by
    rw [text, String.toList_intercalate, List.map_map]
    refine pieces_intercalate (by simpa using h) fun word hword => ?_
    obtain ⟨l, -, rfl⟩ := List.mem_map.1 hword
    exact l.space_notMem_text
  have read : (ls.map fun l => l.text.toList).mapM
      (fun piece => Literal.ofText? (String.ofList piece)) = some ls := by
    clear split h
    induction ls with
    | nil => rfl
    | cons l ls ih => simp [Literal.ofText?_text, ih]
  rw [ofText?, split, read]
  rfl

end Clause

end ProductLine
