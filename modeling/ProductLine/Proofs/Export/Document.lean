/- # What a variability document shows — to one who knows the names of its elements

A reader of documents looks for elements by their names: the options below
`binaryOptions`, in each of them its `name`, `parent` and `optional` and what is
below `excludedOptions`, and the constraints below `booleanConstraints`
(`Export.readDocument?`).  It knows nothing of how the elements came about, and
takes an element without text for one without elements.

The elements are written by a writer that is not looked into.  All that is asked
of it is that it writes them, and that what it has written stands for nothing
else (`Xml.Writer.Faithful`).  So whatever element a text stands for, the reader
finds in it what it finds in the document that was written.
-/
import Mathlib.Data.Option.Basic
import ProductLine.Export.Format
import ProductLine.Proofs.Export.Xml

namespace ProductLine

namespace Xml

/-! ## Writers -/

/-- What is relied on of a writer: no element is too much for it, and a text of its stands for one
element. -/
structure Writer.Faithful (write : Writer) : Prop where
  writes : ∀ x, x.Plain → ∃ text, write x = .ok text
  tells : ∀ x y, x.Plain → y.Plain → write x = write y → x.normal = y.normal

theorem faithful_lines : Writer.Faithful lines where
  writes x _ := ⟨_, rfl⟩
  tells x y plain plain' same := by
    have texts : (render 0 x).toList ++ [] = (render 0 y).toList ++ [] := by
      rw [Except.ok.inj same]
    exact (render_unique x y 0 [] [] plain plain' texts).1

/-! ## Looking for elements -/

/-- The text of an element. -/
def text : Xml → String
  | leaf _ text => text
  | node _ _ _ => ""

/-- The elements in an element. -/
def children : Xml → List Xml
  | leaf _ _ => []
  | node _ _ children => children

/-- The elements of that name in an element. -/
def named (x : Xml) (name : String) : List Xml :=
  x.children.filter fun child => child.tag = name

/-- The element of that name, if there is one and no more. -/
def only? (x : Xml) (name : String) : Option Xml :=
  match x.named name with
  | [child] => some child
  | _ => none

section Normal

variable (x : Xml) (name : String)

theorem normalAll_eq_map (xs : List Xml) : normalAll xs = xs.map normal := by
  induction xs with
  | nil => rfl
  | cons x xs ih => rw [normalAll, ih, List.map_cons]

@[simp] theorem tag_normal : x.normal.tag = x.tag := by
  cases x with
  | leaf name text =>
    rw [normal]
    split <;> rfl
  | node => rfl

@[simp] theorem attributes_normal : x.normal.attributes = x.attributes := by
  cases x with
  | leaf name text =>
    rw [normal]
    split <;> rfl
  | node => rfl

@[simp] theorem text_normal : x.normal.text = x.text := by
  cases x with
  | leaf name text =>
    rw [normal]
    split
    case isTrue empty => exact empty.symm
    case isFalse => rfl
  | node => rfl

@[simp] theorem children_normal : x.normal.children = x.children.map normal := by
  cases x with
  | leaf name text =>
    rw [normal]
    split <;> rfl
  | node name as children => exact normalAll_eq_map children

@[simp] theorem named_normal : x.normal.named name = (x.named name).map normal := by
  rw [named, named, children_normal, List.filter_map]
  simp only [Function.comp_def, tag_normal]

@[simp] theorem only?_normal : x.normal.only? name = (x.only? name).map normal := by
  unfold only?
  rw [named_normal]
  match x.named name with
  | [] | [_] | _ :: _ :: _ => rfl

end Normal

/-- Elements of one name are found by it, all of them. -/
theorem named_map {α : Type} {outer inner : String} {attributes : List (String × String)}
    (write : α → Xml) (tags : ∀ a, (write a).tag = inner) (as : List α) :
    (node outer attributes (as.map write)).named inner = as.map write := by
  refine List.filter_eq_self.mpr (List.forall_mem_map.mpr fun a _ => ?_)
  exact decide_eq_true (tags a)

theorem text_named_leaves {outer inner : String} {attributes : List (String × String)}
    (texts : List String) :
    ((node outer attributes (texts.map (leaf inner))).named inner).map text = texts := by
  rw [named_map (leaf inner) fun _ => rfl, List.map_map]
  exact List.map_id _

end Xml

namespace Export

/-! ## Reading -/

/-- What an option's element shows of it. -/
structure ShownOption where
  name : String
  parent : String
  optional : String
  excluded : List String
deriving DecidableEq

/-- What a document's element shows. -/
structure ShownDocument where
  name : String
  options : List ShownOption
  constraints : List String
deriving DecidableEq

def readOption? (x : Xml) : Option ShownOption := do
  let name ← x.only? "name"
  let parent ← x.only? "parent"
  let optional ← x.only? "optional"
  let excluded ← x.only? "excludedOptions"
  return ⟨name.text, parent.text, optional.text, (excluded.named "options").map Xml.text⟩

def readDocument? (x : Xml) : Option ShownDocument := do
  guard (x.tag = "vm")
  let name ← x.attributes.lookup "name"
  let options ← x.only? "binaryOptions"
  let constraints ← x.only? "booleanConstraints"
  let options ← (options.named "configurationOption").mapM readOption?
  return ⟨name, options, (constraints.named "constraint").map Xml.text⟩

@[simp] theorem readOption?_normal (x : Xml) : readOption? x.normal = readOption? x := by
  simp [readOption?, Option.bind_map, Function.comp_def]

theorem readDocument?_normal (x : Xml) : readDocument? x.normal = readDocument? x := by
  simp [readDocument?, Option.bind_map, Function.comp_def, List.mapM_map]

/-- What is written alike is read alike. -/
theorem readDocument?_eq {write : Xml.Writer} (faithful : write.Faithful) {x y : Xml}
    (plain : x.Plain) (plain' : y.Plain) (same : write x = write y) :
    readDocument? x = readDocument? y := by
  rw [← readDocument?_normal x, ← readDocument?_normal y, faithful.tells x y plain plain' same]

/-! ## The document of a model -/

theorem plain_leaves {name : String} (plain : Xml.PlainName name) (texts : List String) :
    ∀ x ∈ texts.map (Xml.leaf name), x.Plain := by
  refine List.forall_mem_map.mpr ?_
  intro text _
  exact .leaf plain

theorem plain_option (o : ConfigurationOption) : o.toXml.Plain := by
  have name : Xml.PlainName "options" := by simp [Xml.PlainName]
  have excluded := plain_leaves name o.excluded
  refine .node ?_ nofun ?_
  case' refine_2 =>
    simp only [List.forall_mem_cons]
    refine ⟨.leaf ?_, .leaf ?_, .leaf ?_, .leaf ?_, .leaf ?_, .leaf ?_, .leaf ?_,
      .node ?_ nofun nofun, .node ?_ nofun nofun, .node ?_ nofun excluded, nofun⟩
  all_goals simp [Xml.PlainName]

theorem plain_document (d : VariabilityDocument) : d.toXml.Plain := by
  have options : ∀ x ∈ d.options.map ConfigurationOption.toXml, x.Plain := by
    refine List.forall_mem_map.mpr ?_
    intro o _
    exact plain_option o
  have name : Xml.PlainName "constraint" := by simp [Xml.PlainName]
  have constraints := plain_leaves name d.constraints
  refine .node ?_ (List.forall_mem_singleton.mpr ?_) ?_
  case' refine_3 =>
    simp only [List.forall_mem_cons]
    refine ⟨.node ?_ nofun options, .node ?_ nofun constraints, nofun⟩
  all_goals simp [Xml.PlainName]

/-- What is shown of an option. -/
def ConfigurationOption.shown (o : ConfigurationOption) : ShownOption :=
  ⟨o.name, o.parent, if o.optional then "True" else "False", o.excluded⟩

theorem readOption?_toXml (o : ConfigurationOption) : readOption? o.toXml = some o.shown := by
  have name : o.toXml.only? "name" = some (.leaf "name" o.name) := rfl
  have parent : o.toXml.only? "parent" = some (.leaf "parent" o.parent) := rfl
  have optional : o.toXml.only? "optional" =
      some (.leaf "optional" (if o.optional then "True" else "False")) := rfl
  have excluded : o.toXml.only? "excludedOptions" =
      some (.node "excludedOptions" [] (o.excluded.map (.leaf "options"))) := rfl
  simp only [readOption?, name, parent, optional, excluded, Option.bind_eq_bind, Option.bind_some,
    Xml.text_named_leaves]
  rfl

theorem readDocument?_toXml (d : VariabilityDocument) : readDocument? d.toXml =
    some ⟨d.name, d.options.map ConfigurationOption.shown, d.constraints⟩ := by
  have options : d.toXml.only? "binaryOptions" =
      some (.node "binaryOptions" [] (d.options.map ConfigurationOption.toXml)) := rfl
  have constraints : d.toXml.only? "booleanConstraints" =
      some (.node "booleanConstraints" [] (d.constraints.map (.leaf "constraint"))) := rfl
  have read : (d.options.map ConfigurationOption.toXml).mapM readOption? =
      some (d.options.map ConfigurationOption.shown) := by
    rw [List.mapM_map]
    simp only [Function.comp_def, readOption?_toXml]
    exact List.mapM_pure
  have name : d.toXml.attributes.lookup "name" = some d.name := rfl
  have tag : d.toXml.tag = "vm" := rfl
  have found : (Xml.node "binaryOptions" [] (d.options.map ConfigurationOption.toXml)).named
      "configurationOption" = d.options.map ConfigurationOption.toXml :=
    Xml.named_map ConfigurationOption.toXml (fun _ => rfl) d.options
  simp only [readDocument?, tag, name, options, constraints, found, read, guard_true,
    Option.bind_eq_bind, Option.bind_some, Xml.text_named_leaves, Option.pure_def]

end Export

end ProductLine
