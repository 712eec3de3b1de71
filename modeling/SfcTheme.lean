import SfcTheme.Main
import SfcTheme.Proofs.Layout
import SfcTheme.Proofs.Backtracking
import SfcTheme.Proofs.Balance
import SfcTheme.Proofs.Deindentation
import SfcTheme.Proofs.Reserialization
import SfcTheme.Proofs.FixedPoint
import SfcTheme.Proofs.FirstFault
import SfcTheme.Proofs.WellBuilt
import SfcTheme.Proofs.LineNumbers
import SfcTheme.Proofs.Resolution
import SfcTheme.Proofs.Decisions
import SfcTheme.Proofs.Exclusion
import SfcTheme.Proofs.Absorption
import SfcTheme.Proofs.Margin
import SfcTheme.Proofs.Session
import SfcTheme.Proofs.FileTree
import SfcTheme.Proofs.Invocation
import SfcTheme.Proofs.Outcome
import SfcTheme.Proofs.Diagnostics
import SfcTheme.Proofs.Findings
import SfcTheme.Proofs.Inertness
import SfcTheme.Proofs.Verdict
import SfcTheme.Proofs.AttributeOrder
import SfcTheme.Proofs.Position
