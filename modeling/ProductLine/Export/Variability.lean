/- # Variability documents — a model as a list of options

Every feature becomes an option below a parent option: mandatory and
optional features below a synthetic root, the children of a group below the
group's parent, where each excludes its siblings.  A feature has an option
for each role it plays.  Clauses are copied as they are.

The document is a structure of its own, from which the XML is written.
-/
import ProductLine.Export.Xml
import ProductLine.Model.Basic

namespace ProductLine.Export

/-- A configuration option.  The root option has no parent, which is the empty name. -/
structure ConfigurationOption where
  name : String
  parent : String
  optional : Bool
  excluded : List String := []
deriving DecidableEq

structure VariabilityDocument where
  name : String
  options : List ConfigurationOption
  constraints : List String
deriving DecidableEq

def rootName : String := "root"

def rootOption : ConfigurationOption :=
  { name := rootName, parent := "", optional := false }

def optionBelowRoot (optional : Bool) (f : Feature) : ConfigurationOption :=
  { name := f.name, parent := rootName, optional := optional }

def groupOptions (g : AlternativeGroup) : List ConfigurationOption :=
  g.children.map fun child =>
    { name := child.name
      parent := g.parent.name
      optional := true
      excluded := (g.children.filter (· ≠ child)).map Feature.name }

def variabilityDocument (m : Model) : VariabilityDocument where
  name := m.name
  options :=
    rootOption :: (m.mandatory.map (optionBelowRoot false) ++
      m.optional.map (optionBelowRoot true) ++ m.alternatives.flatMap groupOptions)
  constraints := m.constraints

def ConfigurationOption.toXml (o : ConfigurationOption) : Xml :=
  .node "configurationOption" [] [
    .leaf "name" o.name,
    .leaf "outputString" o.name,
    .leaf "prefix" "",
    .leaf "postfix" "",
    .leaf "parent" o.parent,
    .leaf "defaultValue" "Selected",
    .leaf "optional" (if o.optional then "True" else "False"),
    .node "children" [] [],
    .node "impliedOptions" [] [],
    .node "excludedOptions" [] (o.excluded.map (.leaf "options"))]

def VariabilityDocument.toXml (d : VariabilityDocument) : Xml :=
  .node "vm" [("name", d.name)] [
    .node "binaryOptions" [] (d.options.map ConfigurationOption.toXml),
    .node "booleanConstraints" [] (d.constraints.map (.leaf "constraint"))]

/-- The variability document of a model, as `write` has it, and a line feed. -/
def variabilityBy (write : Xml.Writer) (m : Model) : Except XmlFault String :=
  (write (variabilityDocument m).toXml).map (· ++ "\n")

/-- The variability document of a model, written one element per line. -/
def variability (m : Model) : String :=
  (variabilityDocument m).toXml.render 0 ++ "\n"

end ProductLine.Export
