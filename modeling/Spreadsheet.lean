import Spreadsheet.Main
import Spreadsheet.Proofs.Grammar
import Spreadsheet.Proofs.Plan
import Spreadsheet.Proofs.References
import Spreadsheet.Proofs.Settled
import Spreadsheet.Proofs.Memory
import Spreadsheet.Proofs.Dependencies
import Spreadsheet.Proofs.UpToDate
import Spreadsheet.Proofs.Reading
import Spreadsheet.Proofs.Transparency
import Spreadsheet.Proofs.Recorded
import Spreadsheet.Proofs.Invalidation
import Spreadsheet.Proofs.Repeatability
import Spreadsheet.Proofs.Demands
import Spreadsheet.Proofs.Cycles
import Spreadsheet.Proofs.Written
import Spreadsheet.Proofs.Reports
import Spreadsheet.Proofs.Acyclic
import Spreadsheet.Proofs.Nesting
import Spreadsheet.Proofs.Tokens
import Spreadsheet.Proofs.Precedence
import Spreadsheet.Proofs.Brackets
import Spreadsheet.Proofs.Signs
import Spreadsheet.Proofs.Layouts
import Spreadsheet.Proofs.Pipelines
import Spreadsheet.Proofs.Depth
import Spreadsheet.Proofs.NestingLimit
import Spreadsheet.Proofs.PrecedenceTree
import Spreadsheet.Proofs.Alone
import Spreadsheet.Proofs.Levels
import Spreadsheet.Proofs.Outcomes
import Spreadsheet.Proofs.Soundness
import Spreadsheet.Proofs.Stopping
import Spreadsheet.Proofs.Failures
import Spreadsheet.Proofs.FiniteNumbers
import Spreadsheet.Proofs.FiniteValues
import Spreadsheet.Proofs.GraphHistory
import Spreadsheet.Proofs.Spreading
import Spreadsheet.Proofs.CallStack
import Spreadsheet.Proofs.Restoring
import Spreadsheet.Proofs.Height
import Spreadsheet.Proofs.Spelling
import Spreadsheet.Proofs.Links
import Spreadsheet.Proofs.Batches
import Spreadsheet.Proofs.Addresses
import Spreadsheet.Proofs.Comparisons
import Spreadsheet.Proofs.Cuts
import Spreadsheet.Proofs.Quotations
import Spreadsheet.Proofs.Spaces
import Spreadsheet.Proofs.Insertions
import Spreadsheet.Proofs.Places
import Spreadsheet.Proofs.Blanks
import Spreadsheet.Proofs.GroupLimit
import Spreadsheet.Proofs.Bytes
import Spreadsheet.Proofs.FirstOperator
import Spreadsheet.Proofs.Records
import Spreadsheet.Proofs.Tables
