import Ontograph.Main
import Ontograph.Graph.Script
import Ontograph.Ontology.ClassExpression.Canonical
import Ontograph.Ontology.Entity
import Ontograph.Reasoner.Questions
import Ontograph.Proofs.Ontology.NormalForm
import Ontograph.Proofs.Query.Fragment
import Ontograph.Proofs.Query.Exactness
import Ontograph.Proofs.Query.Execution
import Ontograph.Proofs.Query.Tree
import Ontograph.Proofs.Query.CatalogText
import Ontograph.Proofs.Reasoner.Sessions
import Ontograph.Proofs.Query.Readability
import Ontograph.Proofs.Query.Modes
import Ontograph.Proofs.Query.Individuals
import Ontograph.Proofs.Reasoner.Values
import Ontograph.Proofs.Query.Scopes
import Ontograph.Proofs.Query.Encoding
import Ontograph.Proofs.Reasoner.Traversal
import Ontograph.Proofs.Reasoner.Views
import Ontograph.Proofs.Query.Retargeting
import Ontograph.Proofs.Query.Accounting
import Ontograph.Proofs.Query.OperandSets
import Ontograph.Proofs.Reasoner.Rows
import Ontograph.Proofs.Reasoner.Declarations
import Ontograph.Proofs.Query.Searching
import Ontograph.Proofs.Query.Lexemes
