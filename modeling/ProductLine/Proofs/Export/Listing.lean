/- # Sorted listings — what they list, and that the order of declaration is lost

A listing is sorted by the names of the features, and no model has a feature
twice, so the lines go up strictly.  They do so as texts; as bytes as well,
since names are ASCII and a character of theirs is one byte
(`encode_lt_encode`).

Sorting forgets an order, and nothing else: lists that are permutations of
each other are sorted alike (`Feature.sorted_eq_of_perm`).  What a source
declares can be read off its statements without running it, and an accepted
run leaves those features in the model, in that order (`Runs.declared`).  Two
accepted sources with the same declarations are therefore listed alike.
-/
import ProductLine.Export.Listing
import ProductLine.Proofs.Draft.WellFormed
import ProductLine.Proofs.Expr.Lexis
import ProductLine.Proofs.Source.Line
import ProductLine.Proofs.Text.Bytes

namespace ProductLine

/-! ## Sorting by name -/

namespace Feature

variable {fs gs : List Feature}

theorem pairwise_sorted (fs : List Feature) :
    (sorted fs).Pairwise fun f g => f.name ≤ g.name := by
  have ordered : (sorted fs).Pairwise fun f g => le f g = true := by
    refine List.pairwise_mergeSort (fun f g h hfg hgh => ?_) (fun f g => ?_) fs
    · exact decide_eq_true ((of_decide_eq_true hfg).trans (of_decide_eq_true hgh))
    · simpa [le] using le_total f.name g.name
  exact ordered.imp of_decide_eq_true

theorem sorted_perm (fs : List Feature) : (sorted fs).Perm fs :=
  List.mergeSort_perm fs le

/-- Without repetitions the names go up strictly. -/
theorem pairwise_sorted_of_nodup (nodup : fs.Nodup) :
    (sorted fs).Pairwise fun f g => f.name < g.name := by
  have distinct : (sorted fs).Nodup := (sorted_perm fs).nodup_iff.mpr nodup
  refine (pairwise_sorted fs).imp₂ (fun f g below other => ?_) distinct
  exact lt_of_le_of_ne below fun same => other (ext_name same)

/-- Sorting does not depend on the order. -/
theorem sorted_eq_of_perm (h : fs.Perm gs) : sorted fs = sorted gs := by
  refine List.Perm.eq_of_pairwise (fun f g _ _ below above => ?_) (pairwise_sorted fs)
    (pairwise_sorted gs) ((sorted_perm fs).trans (h.trans (sorted_perm gs).symm))
  exact ext_name (le_antisymm below above)

end Feature

/-! ## The order of bytes -/

namespace Text

/-- An identifier character is a byte by itself. -/
theorem stands_of_isIdentifierChar {c : Char} (h : isIdentifierChar c = true) :
    Stands (UInt8.ofNat c.toNat) c := by
  have ranges := toNat_of_isIdentifierChar h
  have value : (UInt8.ofNat c.toNat).toNat = c.toNat := by
    rw [UInt8.toNat_ofNat', Nat.mod_eq_of_lt (by omega)]
  exact ⟨by omega, value.symm⟩

/-- Identifiers are in the order of their bytes. -/
theorem encode_lt_encode {cs ds : List Char} (hcs : ∀ c ∈ cs, isIdentifierChar c = true)
    (hds : ∀ d ∈ ds, isIdentifierChar d = true) (h : cs < ds) : encode cs < encode ds := by
  induction cs generalizing ds with
  | nil =>
    cases ds with
    | nil => exact absurd h (lt_irrefl _)
    | cons d ds =>
      rw [encode, encode, List.flatMap_cons,
        (stands_of_isIdentifierChar (hds d List.mem_cons_self)).utf8EncodeChar_eq]
      exact List.nil_lt_cons _ _
  | cons c cs ih =>
    cases ds with
    | nil => exact absurd h (List.not_lt_nil _)
    | cons d ds =>
      obtain ⟨hc, hcs⟩ := List.forall_mem_cons.mp hcs
      obtain ⟨hd, above⟩ := List.forall_mem_cons.mp hds
      have first := stands_of_isIdentifierChar hc
      have first' := stands_of_isIdentifierChar hd
      rw [encode, encode, List.flatMap_cons, List.flatMap_cons, first.utf8EncodeChar_eq,
        first'.utf8EncodeChar_eq, List.singleton_append, List.singleton_append,
        List.cons_lt_cons_iff]
      rcases List.cons_lt_cons_iff.mp h with below | ⟨rfl, rest⟩
      · refine .inl (UInt8.lt_iff_toNat_lt.mpr ?_)
        rw [← first.same, ← first'.same]
        exact below
      · exact .inr ⟨rfl, ih hcs above rest⟩

end Text

/-! ## The lines of a listing -/

namespace Export

/-- The lines of the text are the names of the features, each after the mark, and their bytes go up
strictly. -/
def Lists (mark : String) (features : List Feature) (text : String) : Prop :=
  ∃ names : List (List Char), Text.lines text.toList = names.map (mark.toList ++ ·) ∧
    (names.map Text.encode).Pairwise (· < ·) ∧
    ∀ name, name ∈ names ↔ ∃ f ∈ features, f.name.toList = name

theorem lists_unlines {mark : String} {fs : List Feature} (nodup : fs.Nodup)
    (oneLine : ∀ c ∈ mark.toList, c ≠ '\n' ∧ c ≠ '\r') :
    Lists mark fs (unlines ((Feature.sorted fs).map fun f => mark ++ f.name)) := by
  have clean : ∀ l ∈ (Feature.sorted fs).map fun f => mark ++ f.name,
      ∀ c ∈ l.toList, c ≠ '\n' ∧ c ≠ '\r' := by
    refine List.forall_mem_map.mpr fun f _ c hc => ?_
    rw [String.toList_append] at hc
    rcases List.mem_append.mp hc with hc | hc
    · exact oneLine c hc
    · have letter := Feature.isIdentifierChar_of_mem_name hc
      constructor <;> rintro rfl <;> exact absurd letter (by decide)
  refine ⟨(Feature.sorted fs).map fun f => f.name.toList, ?_, ?_, fun name => ?_⟩
  · rw [unlines, Text.lines_join clean, List.map_map, List.map_map]
    exact List.map_congr_left fun f _ => String.toList_append
  · rw [List.map_map, List.pairwise_map]
    refine (Feature.pairwise_sorted_of_nodup nodup).imp fun {f g} below => ?_
    exact Text.encode_lt_encode (fun c => Feature.isIdentifierChar_of_mem_name)
      (fun c => Feature.isIdentifierChar_of_mem_name) (String.lt_iff_toList_lt.mp below)
  · rw [List.mem_map]
    exact exists_congr fun f => and_congr_left' (Feature.sorted_perm fs).mem_iff

/-- Of a model whose lists fit together, both listings are right. -/
theorem lists_of_wellFormed {m : Type → Type} {d : Draft m} (h : d.WellFormed) :
    Lists "" d.model.features (featureList d.model) ∧
      Lists "#define " d.model.mandatory (header d.model) := by
  constructor
  · have right : Lists "" d.model.features
        (unlines ((Feature.sorted d.model.features).map fun f => "" ++ f.name)) :=
      lists_unlines h.features_nodup (by simp)
    simp only [String.empty_append] at right
    exact right
  · exact lists_unlines (h.mandatory_sublist.nodup h.features_nodup) (by simp)

end Export

/-! ## What a source declares -/

/-- The feature that an edit declares, in whichever class. -/
def Edit.feature? : Edit → Option Feature
  | .mandatory f | .optional f | .declared f => some f
  | _ => none

/-- The feature that an edit declares as mandatory. -/
def Edit.mandatory? : Edit → Option Feature
  | .mandatory f => some f
  | _ => none

/-- The edit of a statement that declares a feature, so the feature with its class. -/
def Statement.declaration? : Statement → Option Edit
  | .directive d arguments => (edit d arguments).toOption.filter fun e => e.feature?.isSome
  | _ => none

/-- The declarations of a source, in their order. -/
def Source.declarations (source : String) : List Edit :=
  (Source.statements source).filterMap Statement.declaration?

namespace Compilation

variable {m : Type → Type} {c c' : Compilation m} {s : Statement}

/-- The features of the model and the mandatory ones among them are those before, and those that
the declarations declare. -/
structure Declares (model : Model) (declarations : List Edit) (model' : Model) : Prop where
  features : model'.features = model.features ++ declarations.filterMap Edit.feature?
  mandatory : model'.mandatory = model.mandatory ++ declarations.filterMap Edit.mandatory?

theorem Declares.trans {first second third : Model} {before after : List Edit}
    (h : Declares first before second) (h' : Declares second after third) :
    Declares first (before ++ after) third where
  features := by rw [h'.features, h.features, List.filterMap_append, List.append_assoc]
  mandatory := by rw [h'.mandatory, h.mandatory, List.filterMap_append, List.append_assoc]

/-- An accepted line leaves what it declares. -/
theorem Fed.declares (h : Fed c s (.ok (), c')) :
    Declares c.draft.model s.declaration?.toList c'.draft.model := by
  cases h with
  | skipped => exact ⟨(List.append_nil _).symm, (List.append_nil _).symm⟩
  | @accepted d arguments edit texts tickets admitted hedit rules =>
    have declared : (Statement.directive d arguments).declaration? =
        if edit.feature?.isSome then some edit else none := by
      rw [Statement.declaration?, hedit]
      rfl
    rw [declared]
    cases edit with
    | mandatory f | optional f | declared f =>
      constructor <;> simp [Edit.extend, Edit.feature?, Edit.mandatory?]
    | alternative | constraint | excluded => constructor <;> simp [Edit.extend, Edit.feature?]

theorem Runs.declares {lines : List (List Char)} (h : Runs c lines (lines.map fun _ => .ok ()) c') :
    Declares c.draft.model ((lines.map Statement.ofLine).filterMap Statement.declaration?)
      c'.draft.model := by
  induction lines generalizing c with
  | nil =>
    cases h
    exact ⟨(List.append_nil _).symm, (List.append_nil _).symm⟩
  | cons line lines ih =>
    cases h with
    | cons fed rest =>
      have both := fed.declares.trans (ih rest)
      rw [List.map_cons]
      cases hline : (Statement.ofLine line).declaration? with
      | none =>
        rw [hline] at both
        rwa [List.filterMap_cons_none hline]
      | some e =>
        rw [hline] at both
        rwa [List.filterMap_cons_some hline]

end Compilation

/-- However the text is compiled, it is refused or its listings are these. -/
def Source.ListedAs (source headerText featureText : String) : Prop :=
  ∀ (m : Type → Type) [Monad m] [LawfulMonad m] (name : String) (n : Normalizer m),
    SatisfiesM (fun result => ∀ model, result = .ok model →
        Export.header model = headerText ∧ Export.featureList model = featureText)
      (compileText name n source)

/-- An accepted source leaves its declarations in the model, in their order. -/
theorem Source.satisfies_declares {m : Type → Type} [Monad m] [LawfulMonad m] (name : String)
    (n : Normalizer m) (source : String) :
    SatisfiesM (fun result => ∀ model, result = .ok model →
        model.features = (declarations source).filterMap Edit.feature? ∧
          model.mandatory = (declarations source).filterMap Edit.mandatory?)
      (compileText name n source) := by
  refine (Compilation.satisfies_compileText name n source).imp fun accepted model hmodel => ?_
  obtain ⟨final, runs, rfl⟩ := accepted model hmodel
  exact ⟨runs.declares.features, runs.declares.mandatory⟩

/-- The model that the declarations leave when nothing else is said. -/
def Model.ofDeclarations (declarations : List Edit) : Model where
  name := ""
  features := declarations.filterMap Edit.feature?
  mandatory := declarations.filterMap Edit.mandatory?

/-- Where the declarations are the same, in whatever order, so are the listings. -/
theorem Source.listedAs_of_perm {source : String} {declared : List Edit}
    (same : (declarations source).Perm declared) :
    ListedAs source (Export.header (.ofDeclarations declared))
      (Export.featureList (.ofDeclarations declared)) := by
  intro m _ _ name n
  refine (satisfies_declares name n source).imp fun declares model hmodel => ?_
  obtain ⟨features, mandatory⟩ := declares model hmodel
  constructor
  · rw [Export.header, mandatory, Feature.sorted_eq_of_perm (same.filterMap Edit.mandatory?)]
    rfl
  · rw [Export.featureList, features, Feature.sorted_eq_of_perm (same.filterMap Edit.feature?)]
    rfl

namespace Export

/-- After any edits, and whatever the engine does, the lines of the list of features go up strictly
in the order of bytes and are the declared features; the lines of the header do so after their mark,
and are the mandatory ones.  Two sources whose declarations are the same in any order have the same
two listings if both are accepted, whatever else they say. -/
theorem listings_of_declarations :
    (∀ (m : Type → Type) [Monad m] [LawfulMonad m] (name : String) (n : Normalizer m) edits,
      SatisfiesM (fun run => Lists "" run.2.model.features (featureList run.2.model) ∧
          Lists "#define " run.2.model.mandatory (header run.2.model))
        ((Draft.empty name n).applyAll edits)) ∧
    ∀ source source', (Source.declarations source).Perm (Source.declarations source') →
      ∃ headerText featureText,
        Source.ListedAs source headerText featureText ∧
        Source.ListedAs source' headerText featureText := by
  constructor
  · intro m _ _ name n edits
    exact (Draft.satisfies_wellFormed name n edits).imp lists_of_wellFormed
  · intro source source' same
    exact ⟨_, _, Source.listedAs_of_perm same, Source.listedAs_of_perm (.refl _)⟩

end Export

namespace Sample

open Cnf.Sample

def ascending : String :=
  "mandatory A\noptional B\nmandatory C\n"

/-- The same declarations in another order, and more besides. -/
def shuffled : String :=
  "%% later first\nmandatory C\nmandatory A\noptional B\nalternative A B\nconstraint A | B\n"

def ascendingModel : Model where
  name := "m"
  features := [a, b, c]
  mandatory := [a, c]
  optional := [b]

def shuffledModel : Model where
  name := "n"
  features := [c, a, b]
  mandatory := [c, a]
  optional := [b]
  alternatives := [⟨a, [b]⟩]
  constraints := ["A | B"]

end Sample

open Export Sample Cnf.Sample Draft.Sample in
theorem Export.listings_of_declarations_shuffled :
    Lists "#define " run.2.model.mandatory (header run.2.model) ∧
      (Source.declarations ascending).Perm (Source.declarations shuffled) ∧
      (Source.compileText "m" asker ascending).run = .ok ascendingModel ∧
      (Source.compileText "n" asker shuffled).run = .ok shuffledModel ∧
      header shuffledModel = header ascendingModel ∧
      featureList shuffledModel = featureList ascendingModel := by
  obtain ⟨reached, declared⟩ := listings_of_declarations
  have same : (Source.declarations ascending).Perm (Source.declarations shuffled) := by
    have first : Source.declarations ascending = [.mandatory a, .optional b, .mandatory c] := by
      cbv
    have second : Source.declarations shuffled = [.mandatory c, .mandatory a, .optional b] := by
      cbv
    rw [first, second]
    decide
  have accepted : (Source.compileText "m" asker ascending).run = .ok ascendingModel := by cbv
  have accepted' : (Source.compileText "n" asker shuffled).run = .ok shuffledModel := by cbv
  obtain ⟨headerText, featureText, listed, listed'⟩ := declared ascending shuffled same
  obtain ⟨left, left'⟩ := satisfiesM_id_iff.mp (listed Id "m" asker) ascendingModel accepted
  obtain ⟨right, right'⟩ := satisfiesM_id_iff.mp (listed' Id "n" asker) shuffledModel accepted'
  have kept := satisfiesM_id_iff.mp (reached Id "m" asker edits)
  exact ⟨kept.2, same, accepted, accepted', right.trans left.symm, right'.trans left'.symm⟩

end ProductLine
