import DesignByNumbers.Batch
import DesignByNumbers.Double
import DesignByNumbers.Markup.Describe
import DesignByNumbers.Picture.Grey
import DesignByNumbers.Settings.Composition
import DesignByNumbers.Settings.Use
import DesignByNumbers.Proofs.Expression
import DesignByNumbers.Proofs.Tree.Interpretation
import DesignByNumbers.Proofs.Session
import DesignByNumbers.Proofs.Backend
import DesignByNumbers.Proofs.Agreement
import DesignByNumbers.Proofs.Drawable
import DesignByNumbers.Proofs.Lexer.Partition
import DesignByNumbers.Proofs.Lexer.Verification
import DesignByNumbers.Proofs.Places
import DesignByNumbers.Proofs.Diagnosis
import DesignByNumbers.Proofs.Consistency.Session
import DesignByNumbers.Proofs.Failure
import DesignByNumbers.Proofs.Interface
import DesignByNumbers.Proofs.Lifecycle
import DesignByNumbers.Proofs.Prelude
import DesignByNumbers.Proofs.Termination
import DesignByNumbers.Proofs.Demands.Run
import DesignByNumbers.Proofs.Picture.Segment
import DesignByNumbers.Proofs.Picture.Grey
import DesignByNumbers.Proofs.Picture.Reading
import DesignByNumbers.Proofs.Unrolling
import DesignByNumbers.Proofs.Canonical
import DesignByNumbers.Proofs.Markup.NormalForm
import DesignByNumbers.Proofs.Markup.Reader
import DesignByNumbers.Proofs.Block.Closed
import DesignByNumbers.Proofs.Table
import DesignByNumbers.Proofs.Batch
