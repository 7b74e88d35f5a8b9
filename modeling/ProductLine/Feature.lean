/- # Features — the atoms of a model

A feature is known by its name, and a name is a non-empty run of ASCII
letters, ASCII digits and underscores.  The condition is a field of the
type: whatever holds a `Feature`, be it a model, an expression or a clause,
holds a well-formed name.  A `FeatureSet` is for finding features by name
where a list would be searched from end to end.
-/
import Std.Data.TreeSet

namespace ProductLine

/-- The characters of names.  `Char.isAlphanum` knows ASCII alone, which is what names admit. -/
def isIdentifierChar (c : Char) : Bool :=
  c.isAlphanum || c == '_'

/-- The text is a name: not empty, and made of identifier characters. -/
def isIdentifier (text : String) : Bool :=
  !text.isEmpty && text.toList.all isIdentifierChar

/-- A feature, given by its name. -/
structure Feature where
  name : String
  isIdentifier_name : isIdentifier name = true
deriving DecidableEq

namespace Feature

def ofName? (name : String) : Option Feature :=
  if h : isIdentifier name then some ⟨name, h⟩ else none

/-- The feature named by the identifier characters at the start of `first :: rest`. -/
def ofRun (first : Char) (rest : List Char) (h : isIdentifierChar first = true) : Feature where
  name := String.ofList (first :: rest.takeWhile isIdentifierChar)
  isIdentifier_name := by
    simp [isIdentifier, h, ← String.toList_inj]

/-- Features are listed by their names, character by character. -/
def le (a b : Feature) : Bool :=
  decide (a.name ≤ b.name)

def sorted (features : List Feature) : List Feature :=
  features.mergeSort le

theorem isIdentifierChar_of_mem_name {f : Feature} {c : Char} (h : c ∈ f.name.toList) :
    isIdentifierChar c = true := by
  have letters := f.isIdentifier_name
  simp only [isIdentifier, Bool.and_eq_true, List.all_eq_true] at letters
  exact letters.2 c h

theorem ext_name {a b : Feature} (h : a.name = b.name) : a = b := by
  cases a; cases b; simp_all

theorem ofName?_eq_some_iff {name : String} {f : Feature} :
    ofName? name = some f ↔ f.name = name := by
  unfold ofName?
  split
  case isTrue h =>
    constructor
    · rintro ⟨⟩; rfl
    · intro e; exact congrArg some (ext_name e.symm)
  case isFalse h =>
    constructor
    · intro e; cases e
    · intro e; exact absurd (e ▸ f.isIdentifier_name) h

theorem ofName?_name (f : Feature) : ofName? f.name = some f :=
  ofName?_eq_some_iff.2 rfl

end Feature

/-! ## Sets of features -/

abbrev FeatureSet := Std.TreeSet Feature (compareOn Feature.name)

namespace FeatureSet

theorem notMem_empty (f : Feature) : f ∉ (∅ : FeatureSet) :=
  Std.TreeSet.not_mem_emptyc

theorem mem_insert_iff {s : FeatureSet} {f g : Feature} : f ∈ s.insert g ↔ f = g ∨ f ∈ s := by
  rw [Std.TreeSet.mem_insert, compareOn, Std.compare_eq_iff_eq]
  refine or_congr_left ⟨fun h => Feature.ext_name h.symm, ?_⟩
  rintro rfl
  rfl

end FeatureSet

end ProductLine
