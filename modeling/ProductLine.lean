import ProductLine.Expr.Text
import ProductLine.Main
import ProductLine.Proofs.ClauseLength
import ProductLine.Proofs.Cnf.Idempotence
import ProductLine.Proofs.Cnf.Meaning
import ProductLine.Proofs.Cnf.Pruning
import ProductLine.Proofs.Cnf.Shape
import ProductLine.Proofs.Draft.Erasure
import ProductLine.Proofs.Draft.Stored
import ProductLine.Proofs.Draft.Verdict
import ProductLine.Proofs.Engine.Calls
import ProductLine.Proofs.Engine.Conjunction
import ProductLine.Proofs.Export.Listing
import ProductLine.Proofs.Export.Presence
import ProductLine.Proofs.Export.Stretches
import ProductLine.Proofs.Export.Variability
import ProductLine.Proofs.Expr.Appearance
import ProductLine.Proofs.Expr.Blame
import ProductLine.Proofs.Expr.Writing
import ProductLine.Proofs.Project
import ProductLine.Proofs.Source.Blocks
import ProductLine.Proofs.Source.Bytes
import ProductLine.Proofs.Source.Layout
import ProductLine.Proofs.Source.Lock
import ProductLine.Proofs.Source.Meaning
import ProductLine.Proofs.Source.Rewriting
