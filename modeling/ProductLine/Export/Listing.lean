/- # Listings — features in plain text, one per line

Both listings are sorted by name, so that they depend on which features were
declared and not on the order in which they were.
-/
import ProductLine.Model.Basic

namespace ProductLine.Export

def unlines (lines : List String) : String :=
  String.join (lines.map (· ++ "\n"))

/-- A definition for each mandatory feature. -/
def header (m : Model) : String :=
  unlines ((Feature.sorted m.mandatory).map fun f => "#define " ++ f.name)

def featureList (m : Model) : String :=
  unlines ((Feature.sorted m.features).map Feature.name)

end ProductLine.Export
