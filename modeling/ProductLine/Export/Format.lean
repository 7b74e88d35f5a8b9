/- # Formats — the exports to choose from

Of the exports only the XML can fail, where its writer does.  With `Xml.lines`
it does not, so that `generate` has a text for every format and model.
-/
import ProductLine.Export.Listing
import ProductLine.Export.Presence
import ProductLine.Export.Variability

namespace ProductLine

inductive ExportFormat where
  | variability
  | presence
  | header
  | featureList
deriving DecidableEq

namespace ExportFormat

def all : List ExportFormat := [variability, presence, header, featureList]

def name : ExportFormat → String
  | variability => "xml"
  | presence => "expression"
  | header => "header"
  | featureList => "features"

def extension : ExportFormat → String
  | variability => "xml"
  | presence => "fexpr"
  | header => "h"
  | featureList => "features"

def ofName? (name : String) : Option ExportFormat :=
  all.find? fun format => format.name == name

def defaultFile (format : ExportFormat) (model : String) : String :=
  model ++ "." ++ format.extension

def generateBy (write : Xml.Writer) : ExportFormat → Model → Except XmlFault String
  | variability, m => Export.variabilityBy write m
  | presence, m => .ok (Export.presence m)
  | header, m => .ok (Export.header m)
  | featureList, m => .ok (Export.featureList m)

def generate : ExportFormat → Model → String
  | variability, m => Export.variability m
  | presence, m => Export.presence m
  | header, m => Export.header m
  | featureList, m => Export.featureList m

theorem generateBy_lines (format : ExportFormat) (m : Model) :
    format.generateBy Xml.lines m = .ok (format.generate m) := by
  cases format <;> rfl

theorem ofName?_name (format : ExportFormat) : ofName? format.name = some format := by
  cases format <;> decide

end ExportFormat

end ProductLine
