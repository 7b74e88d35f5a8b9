/- # Writing edits — a line for every edit

An edit is asked for by the keyword of its directive and its arguments
(`Edit.line`).  The line is read as that edit again
(`Statement.ofLine_line`, `Statement.edit_arguments`), provided that the
arguments are there and have no white space but spaces, and none at their ends
(`Edit.Writable`): names do, and so does the text of a clause.  A source made
of the lines of edits that a draft accepts is therefore accepted, with the
draft's model (`Compilation.feedLines_of_accepts`).
-/
import ProductLine.Proofs.Expr.Chain
import ProductLine.Proofs.Source.Line
import ProductLine.Proofs.Text.Lines

namespace ProductLine

open Text (Edged)

/-! ## Edits as lines -/

/-- What stands after the keyword on the line of an edit. -/
def Edit.arguments : Edit → String
  | .mandatory f | .optional f | .declared f => f.name
  | .alternative parent children => " ".intercalate ((parent :: children).map Feature.name)
  | .constraint expression => expression
  | .excluded listed => " ".intercalate (listed.map Feature.name)

/-- The line that asks for an edit. -/
def Edit.line (edit : Edit) : String :=
  edit.directive.keyword ++ " " ++ edit.arguments

/-- The edit has arguments that fit on a line and come back from it. -/
structure Edit.Writable (edit : Edit) : Prop where
  edged : Edged edit.arguments.toList
  nonempty : edit.arguments.toList ≠ []
  spaced : Text.Spaced edit.arguments.toList

theorem Directive.isIdentifierChar_of_mem_keyword {d : Directive} :
    ∀ c ∈ d.keyword.toList, isIdentifierChar c = true := by
  refine List.all_eq_true.mp ?_
  cases d <;> cbv

namespace Statement

theorem feature_name (f : Feature) : feature f.name.toList = .ok f := by
  rw [feature, String.ofList_toList, Feature.ofName?_name]

/-- Names with a space between them are read as the features that they name. -/
theorem features_names (fs : List Feature) :
    features (" ".intercalate (fs.map Feature.name)).toList = .ok fs := by
  have words : Text.words (" ".intercalate (fs.map Feature.name)).toList =
      fs.map fun f => f.name.toList := by
    rw [String.toList_intercalate, List.map_map]
    refine Text.words_intercalate fun w hw => ?_
    obtain ⟨f, -, rfl⟩ := List.mem_map.mp hw
    exact ⟨f.toList_name_ne_nil, fun c => Feature.isBlank_of_mem_name⟩
  rw [features, words, mapM_eq_ok_iff, List.map_map]
  exact List.map_congr_left fun f _ => feature_name f

theorem singleFeature_name (f : Feature) : singleFeature f.name.toList = .ok f := by
  have word := Text.words_singleton f.toList_name_ne_nil fun c => Feature.isBlank_of_mem_name
  rw [singleFeature, word]
  exact feature_name f

/-- The arguments of an edit are read as that edit. -/
theorem edit_arguments (e : Edit) : edit e.directive e.arguments.toList = .ok e := by
  cases e with
  | mandatory f | optional f | declared f =>
    simp only [Edit.directive, Edit.arguments, edit, singleFeature_name]
    rfl
  | alternative parent children =>
    simp only [Edit.directive, Edit.arguments, edit, features_names]
    rfl
  | constraint expression =>
    simp only [Edit.directive, Edit.arguments, edit, String.ofList_toList]
  | excluded listed =>
    simp only [Edit.directive, Edit.arguments, edit, features_names]
    rfl

/-- The line of an edit is split into its keyword and its arguments. -/
theorem ofLine_line {e : Edit} (h : e.Writable) :
    ofLine e.line.toList = .directive e.directive e.arguments.toList := by
  have spelled : e.line.toList = e.directive.keyword.toList ++ ([' '] ++ e.arguments.toList) := by
    rw [Edit.line, String.toList_append, String.toList_append, List.append_assoc]
    rfl
  have keyword : ∀ c ∈ e.directive.keyword.toList, Text.isBlank c = false := fun c hc =>
    isBlank_of_isIdentifierChar (Directive.isIdentifierChar_of_mem_keyword c hc)
  have nonempty : e.directive.keyword.toList ≠ [] := by cases e.directive <;> decide
  have edged : Edged e.line.toList := by
    rw [spelled]
    exact (Text.edged_of_forall keyword).join h.edged nonempty h.nonempty [' ']
  have breaks : Text.Breaks ([' '] ++ e.arguments.toList) := by
    rintro c ⟨⟩
    decide
  have rest : Text.trim ([' '] ++ e.arguments.toList) = e.arguments.toList := by
    have trimmed := Text.trim_surround Text.blank_space Text.blank_nil h.edged
    rwa [List.append_nil] at trimmed
  rw [ofLine_eq_directive_iff, parts, Text.trim_of_edged edged, spelled,
    Text.splitWord_append keyword breaks, rest]

end Statement

/-! ## Which edits can be written -/

namespace Edit

/-- Names that stand on one line. -/
theorem writable_of_names {edit : Edit} {fs : List Feature} (nonempty : fs ≠ [])
    (h : edit.arguments = " ".intercalate (fs.map Feature.name)) : edit.Writable where
  edged := by
    rw [h, String.toList_intercalate, List.map_map]
    refine Text.edged_intercalate _ fun word hword => ?_
    obtain ⟨f, -, rfl⟩ := List.mem_map.mp hword
    exact ⟨f.toList_name_ne_nil, Text.edged_of_forall fun _ => Feature.isBlank_of_mem_name⟩
  nonempty := by
    obtain ⟨f, fs, rfl⟩ := List.exists_cons_of_ne_nil nonempty
    rw [h, List.map_cons, Expr.toList_intercalate_cons]
    exact List.append_ne_nil_of_left_ne_nil f.toList_name_ne_nil _
  spaced := by
    rw [h, String.toList_intercalate, List.map_map]
    refine Text.spaced_intercalate Text.spaced_space fun word hword => ?_
    obtain ⟨f, -, rfl⟩ := List.mem_map.mp hword
    exact Text.spaced_of_forall fun _ => Feature.isBlank_of_mem_name

theorem writable_constraint {c : Clause} (nonempty : c.literals ≠ []) :
    (constraint c.text).Writable where
  edged := c.edged_text
  nonempty := Clause.toList_text_ne_nil nonempty
  spaced := c.spaced_text

theorem Writable.spaced_line {edit : Edit} (h : edit.Writable) : Text.Spaced edit.line.toList := by
  rw [line, String.toList_append, String.toList_append]
  refine Text.spaced_append_iff.mpr ⟨Text.spaced_append_iff.mpr ⟨?_, Text.spaced_space⟩, h.spaced⟩
  exact Text.spaced_of_forall fun c hc =>
    isBlank_of_isIdentifierChar (Directive.isIdentifierChar_of_mem_keyword c hc)

end Edit

/-! ## Edits that are accepted one after the other -/

namespace Draft

variable {d d' d'' : Draft Id}

/-- All edits are accepted, and lead from the first draft to the second one. -/
inductive Accepts : Draft Id → List Edit → Draft Id → Prop where
  | nil (d : Draft Id) : Accepts d [] d
  | cons {d d' d'' : Draft Id} {edit : Edit} {edits : List Edit} :
      (d.apply edit).run = (.ok (), d') → Accepts d' edits d'' → Accepts d (edit :: edits) d''

theorem Accepts.append {edits edits' : List Edit} (h : Accepts d edits d')
    (h' : Accepts d' edits' d'') : Accepts d (edits ++ edits') d'' := by
  induction h with
  | nil => exact h'
  | cons happly _ ih => exact .cons happly (ih h')

/-- An edit that keeps the rules and needs no engine is accepted. -/
theorem apply_of_admitted {edit : Edit} (other : ∀ expression, edit ≠ .constraint expression)
    (admitted : edit.Admitted d) : (d.apply edit).run =
      (.ok (), ⟨edit.extend [] d.model, edit.enter d.index, d.normalizer⟩) := by
  cases edit with
  | mandatory f =>
    exact revise_eq_ok_iff.mpr ⟨Model.addMandatory_eq_ok_iff.mpr ⟨admitted, rfl⟩, rfl, rfl⟩
  | optional f =>
    exact revise_eq_ok_iff.mpr ⟨Model.addOptional_eq_ok_iff.mpr ⟨admitted, rfl⟩, rfl, rfl⟩
  | declared f =>
    exact revise_eq_ok_iff.mpr ⟨Model.addDeclared_eq_ok_iff.mpr ⟨admitted, rfl⟩, rfl, rfl⟩
  | alternative parent children =>
    exact revise_eq_ok_iff.mpr ⟨Model.addAlternative_eq_ok_iff.mpr ⟨admitted, rfl⟩, rfl, rfl⟩
  | constraint expression => exact absurd rfl (other expression)
  | excluded listed =>
    exact revise_eq_ok_iff.mpr ⟨Model.addExcluded_eq_ok_iff.mpr ⟨admitted, rfl⟩, rfl, rfl⟩

end Draft

/-- Lines of edits that are accepted are accepted, as long as none of them is an exclusion. -/
theorem Compilation.feedLines_of_accepts {d d' : Draft Id} {edits : List Edit}
    (h : Draft.Accepts d edits d')
    (lines : ∀ edit ∈ edits, edit.Writable ∧ edit.directive ≠ .excluded) (number : Nat) :
    ((⟨d, .open⟩ : Compilation Id).feedLines number
      ((edits.map fun edit => edit.line.toList).map .ok)).run = .ok ⟨d', .open⟩ := by
  induction h generalizing number with
  | nil => rfl
  | @cons d d' d'' edit edits happly _ ih =>
    obtain ⟨⟨writable, other⟩, rest⟩ := List.forall_mem_cons.mp lines
    refine feedLines_cons_eq_ok_iff.mpr ⟨⟨d', .open⟩, feed_eq_ok_iff.mpr (.inr ?_), ih rest _⟩
    refine ⟨edit.directive, edit.arguments.toList, Statement.ofLine_line writable, ?_⟩
    refine perform_eq_ok_iff.mpr ⟨nofun, edit, d', Statement.edit_arguments edit, happly, ?_⟩
    rw [phaseAfter, if_neg other]

end ProductLine
