/- # Wrapping — names as `defined(…)`, and back

`bare` takes every `defined(F)` in a text back to `F`, reading from the left.
It undoes `wrapFrom` on every text (`bare_wrapFrom`), whatever names there are:
a feature may be called `defined`, but after wrapping no name stands outside
of its parentheses, so the first `defined(` that is met is always one that was
put there.

A text is taken apart at its names for this (`names_induction`): either it
starts with a name that ends where the name does, or with a character that is
in none.
-/
import ProductLine.Export.Presence
import ProductLine.Proofs.ClauseText

namespace ProductLine.Export

/-- The name in the `defined(…)` that a text starts with, and the text after it. -/
def definedName? : List Char → Option (List Char × List Char)
  | 'd' :: 'e' :: 'f' :: 'i' :: 'n' :: 'e' :: 'd' :: '(' :: rest =>
    match rest.takeWhile isIdentifierChar, rest.dropWhile isIdentifierChar with
    | c :: name, ')' :: after => some (c :: name, after)
    | _, _ => none
  | _ => none

theorem length_of_definedName? {text name after : List Char}
    (h : definedName? text = some (name, after)) : after.length < text.length := by
  unfold definedName? at h
  split at h
  case h_1 rest =>
    split at h
    case h_1 hafter =>
      cases h
      have short := (List.dropWhile_sublist isIdentifierChar (l := rest)).length_le
      rw [hafter, List.length_cons] at short
      simp only [List.length_cons]
      omega
    case h_2 => cases h
  case h_2 => cases h

/-- The text with each `defined(F)` spelled `F`. -/
def bare (text : List Char) : List Char :=
  match _h : definedName? text with
  | some (name, after) => name ++ bare after
  | none =>
    match text with
    | [] => []
    | c :: rest => c :: bare rest
termination_by text.length
decreasing_by
  · exact length_of_definedName? _h
  · simp

variable {rest : List Char} {c : Char}

theorem definedName?_append (f : Feature) (rest : List Char) :
    definedName? ("defined(".toList ++ (f.name.toList ++ ')' :: rest)) =
      some (f.name.toList, rest) := by
  have letters : ∀ c ∈ f.name.toList, isIdentifierChar c = true := fun c =>
    Feature.isIdentifierChar_of_mem_name
  have taken : (f.name.toList ++ ')' :: rest).takeWhile isIdentifierChar = f.name.toList := by
    rw [List.takeWhile_append_of_pos letters, List.takeWhile_cons_of_neg (by decide),
      List.append_nil]
  have dropped : (f.name.toList ++ ')' :: rest).dropWhile isIdentifierChar = ')' :: rest := by
    rw [List.dropWhile_append_of_pos letters, List.dropWhile_cons_of_neg (by decide)]
  obtain ⟨c, name, hname⟩ := List.exists_cons_of_ne_nil f.toList_name_ne_nil
  show (match (f.name.toList ++ ')' :: rest).takeWhile isIdentifierChar,
      (f.name.toList ++ ')' :: rest).dropWhile isIdentifierChar with
    | c :: name, ')' :: after => some (c :: name, after)
    | _, _ => none) = _
  rw [taken, dropped, hname]
  rfl

theorem definedName?_of_not_identifier (h : isIdentifierChar c = false) (rest : List Char) :
    definedName? (c :: rest) = none := by
  unfold definedName?
  split
  case h_1 heq =>
    cases heq
    exact absurd h (by decide)
  case h_2 => rfl

theorem bare_defined (f : Feature) (rest : List Char) :
    bare ("defined(".toList ++ (f.name.toList ++ ')' :: rest)) = f.name.toList ++ bare rest := by
  rw [bare]
  split
  case h_1 name after h =>
    rw [definedName?_append] at h
    cases h
    rfl
  case h_2 h =>
    rw [definedName?_append] at h
    cases h

theorem bare_cons (h : isIdentifierChar c = false) (rest : List Char) :
    bare (c :: rest) = c :: bare rest := by
  rw [bare]
  split
  case h_1 name after heq =>
    rw [definedName?_of_not_identifier h] at heq
    cases heq
  case h_2 => rfl

/-! ## Texts, name by name -/

/-- What holds of the empty text, and goes on holding when a character that is in no name or a whole
name is put in front, holds of every text. -/
@[elab_as_elim]
theorem names_induction {motive : List Char → Prop} (nil : motive [])
    (other : ∀ c rest, isIdentifierChar c = false → motive rest → motive (c :: rest))
    (name : ∀ (f : Feature) rest, (∀ c ∈ rest.head?, isIdentifierChar c = false) →
      motive rest → motive (f.name.toList ++ rest)) (text : List Char) : motive text := by
  match text with
  | [] => exact nil
  | c :: rest =>
    cases hc : isIdentifierChar c with
    | false => exact other c rest hc (names_induction nil other name rest)
    | true =>
      have shorter : (rest.dropWhile isIdentifierChar).length < (c :: rest).length := by
        have short := (List.dropWhile_sublist isIdentifierChar (l := rest)).length_le
        rw [List.length_cons]
        omega
      rw [← toList_ofRun_append c rest hc]
      exact name _ _ (head?_dropWhile_identifier rest) (names_induction nil other name _)
termination_by text.length
decreasing_by
  · simp
  · exact shorter

theorem wrapFrom_cons (h : isIdentifierChar c = false) (rest : List Char) :
    wrapFrom false (c :: rest) = c :: wrapFrom false rest := by
  simp only [wrapFrom, h]

/-- Inside of a name the copy goes on to its end. -/
theorem wrapFrom_true {name : List Char} (letters : ∀ c ∈ name, isIdentifierChar c = true)
    (ends : ∀ c ∈ rest.head?, isIdentifierChar c = false) :
    wrapFrom true (name ++ rest) = name ++ ')' :: wrapFrom false rest := by
  induction name with
  | nil =>
    cases rest with
    | nil => rfl
    | cons c rest =>
      simp only [List.nil_append, wrapFrom, ends c rfl]
  | cons c name ih =>
    obtain ⟨hc, hname⟩ := List.forall_mem_cons.mp letters
    simp only [List.cons_append, wrapFrom, hc, ih hname]

theorem wrapFrom_name (f : Feature) (ends : ∀ c ∈ rest.head?, isIdentifierChar c = false) :
    wrapFrom false (f.name.toList ++ rest) =
      "defined(".toList ++ (f.name.toList ++ ')' :: wrapFrom false rest) := by
  obtain ⟨c, name, hname⟩ := List.exists_cons_of_ne_nil f.toList_name_ne_nil
  have letters : ∀ d ∈ c :: name, isIdentifierChar d = true := fun d hd =>
    Feature.isIdentifierChar_of_mem_name (hname ▸ hd)
  obtain ⟨hc, hrest⟩ := List.forall_mem_cons.mp letters
  simp only [hname, List.cons_append, wrapFrom, hc, wrapFrom_true hrest ends]

/-- Wrapping is undone. -/
theorem bare_wrapFrom (text : List Char) : bare (wrapFrom false text) = text := by
  induction text using names_induction with
  | nil => rw [wrapFrom, bare]; rfl
  | other c rest hc ih => rw [wrapFrom_cons hc, bare_cons hc, ih]
  | name f rest ends ih => rw [wrapFrom_name f ends, bare_defined, ih]

theorem toList_wrapDefined (text : String) :
    (wrapDefined text).toList = wrapFrom false text.toList := by
  rw [wrapDefined, String.toList_ofList]

theorem bare_wrapDefined (text : String) : bare (wrapDefined text).toList = text.toList := by
  rw [toList_wrapDefined, bare_wrapFrom]

/-- All characters of a text are in the wrapped text. -/
theorem subset_wrapFrom (text : List Char) : text ⊆ wrapFrom false text := by
  induction text using names_induction with
  | nil => exact List.nil_subset _
  | other c rest hc ih =>
    rw [wrapFrom_cons hc]
    exact List.cons_subset_cons c ih
  | name f rest ends ih =>
    rw [wrapFrom_name f ends]
    intro x hx
    refine List.mem_append_right _ ?_
    rcases List.mem_append.mp hx with hname | hrest
    · exact List.mem_append_left _ hname
    · exact List.mem_append_right _ (List.mem_cons_of_mem _ (ih hrest))

/-- Wrapping adds no white space. -/
theorem spaced_wrapFrom {text : List Char} (h : Text.Spaced text) :
    Text.Spaced (wrapFrom false text) := by
  induction text using names_induction with
  | nil => exact nofun
  | other c rest hc ih =>
    obtain ⟨first, others⟩ := List.forall_mem_cons.mp h
    rw [wrapFrom_cons hc]
    exact List.forall_mem_cons.mpr ⟨first, ih others⟩
  | name f rest ends ih =>
    obtain ⟨name, others⟩ := Text.spaced_append_iff.mp h
    have opening : Text.Spaced "defined(".toList := Text.spaced_of_all rfl
    rw [wrapFrom_name f ends]
    refine Text.spaced_append_iff.mpr ⟨opening, Text.spaced_append_iff.mpr ⟨name, ?_⟩⟩
    exact List.forall_mem_cons.mpr ⟨by decide, ih others⟩

end ProductLine.Export
