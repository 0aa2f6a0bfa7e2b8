import SqlScript.Catalog.Outline
import SqlScript.Catalog.Reference
import SqlScript.Listing
import SqlScript.Main
import SqlScript.Proofs.Catalog.Delimited
import SqlScript.Proofs.Catalog.Objects
import SqlScript.Proofs.Layout.Fault
import SqlScript.Proofs.Layout.Finished
import SqlScript.Proofs.Layout.Folded
import SqlScript.Proofs.Layout.Fragment
import SqlScript.Proofs.Layout.Governing
import SqlScript.Proofs.Layout.Idempotent
import SqlScript.Proofs.Layout.Indent
import SqlScript.Proofs.Layout.Listed
import SqlScript.Proofs.Layout.Malformed
import SqlScript.Proofs.Layout.ReadBack
import SqlScript.Proofs.Layout.Respaced
import SqlScript.Proofs.Layout.Visible
import SqlScript.Proofs.Node.Counterpart
import SqlScript.Proofs.Script.Alone
import SqlScript.Proofs.Script.Counter
import SqlScript.Proofs.Script.Expression
import SqlScript.Proofs.Script.Partition
import SqlScript.Proofs.Script.Search
import SqlScript.Proofs.Script.Uncommented
import SqlScript.Proofs.Statement.Schema
import SqlScript.Proofs.Table.Aligned
import SqlScript.Proofs.Token.WordCase
import SqlScript.Script.Runnable
import SqlScript.Statement.Schema
import SqlScript.Verb
