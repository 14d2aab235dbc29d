import TreeRules.Catalogue.Rules
import TreeRules.Classes
import TreeRules.Configuration.Forms
import TreeRules.Json.Reader
import TreeRules.Json.Writer
import TreeRules.Log.Setup
import TreeRules.Node.Binding
import TreeRules.Node.Display
import TreeRules.Node.Json
import TreeRules.Node.SExpression
import TreeRules.Numeral
import TreeRules.Script.Rule
import TreeRules.Text.Lines
import TreeRules.Proofs.CallOrder
import TreeRules.Proofs.Conservation
import TreeRules.Proofs.LastRule
import TreeRules.Proofs.PlainDispatch
import TreeRules.Proofs.Preservation
import TreeRules.Proofs.CatalogueNesting
import TreeRules.Proofs.Elimination
import TreeRules.Proofs.Isolation
import TreeRules.Proofs.Session
import TreeRules.Proofs.Deeds
import TreeRules.Proofs.Legibility
import TreeRules.Proofs.Resolution
import TreeRules.Proofs.History
import TreeRules.Proofs.Observation
import TreeRules.Proofs.Failure
import TreeRules.Proofs.Declarations
import TreeRules.Proofs.CatalogueRewriting
import TreeRules.Proofs.Renaming
import TreeRules.Proofs.Transfer
import TreeRules.Proofs.Concurrence
import TreeRules.Proofs.Neighbours
import TreeRules.Proofs.Appearance
import TreeRules.Proofs.Multiplicity
import TreeRules.Proofs.Pruning
import TreeRules.Proofs.FanOut
import TreeRules.Proofs.Relabelling
import TreeRules.Proofs.Splicing
import TreeRules.Proofs.Depth
import TreeRules.Proofs.Layouts
import TreeRules.Proofs.Fusion
import TreeRules.Proofs.Absorption
import TreeRules.Proofs.Configuring
import TreeRules.Proofs.Recovery
import TreeRules.Proofs.Reporting
import TreeRules.Proofs.Retaining
import TreeRules.Proofs.Recording
