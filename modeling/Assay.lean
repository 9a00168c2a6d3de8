import Assay.Main
import Assay.Proofs.Scope.Classification
import Assay.Proofs.Scope.Refusals
import Assay.Proofs.Scope.Visibility
import Assay.Proofs.Check.ConstantFolding
import Assay.Proofs.Check.Descriptors
import Assay.Proofs.Check.Initializers
import Assay.Proofs.Check.Isolation
import Assay.Proofs.Check.Lists
import Assay.Proofs.Check.Safety
import Assay.Proofs.Number.Exactness
import Assay.Proofs.Expr.Constness
import Assay.Proofs.Expr.DeepestBranch
import Assay.Proofs.Expr.Substitution
import Assay.Proofs.Expr.Violations
import Assay.Proofs.Manifest.Unambiguity
