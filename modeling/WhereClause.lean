import WhereClause.Compiler
import WhereClause.Environment
import WhereClause.Options.Document
import WhereClause.Wire
import WhereClause.Decimal.Numeral
import WhereClause.Proofs.Session
import WhereClause.Proofs.Noninterference
import WhereClause.Proofs.Meaning
import WhereClause.Proofs.Placeholder.Correspondence
import WhereClause.Proofs.AppendOnly
import WhereClause.Proofs.Values
import WhereClause.Proofs.Independence
import WhereClause.Proofs.Language
import WhereClause.Proofs.Vacuous
import WhereClause.Proofs.FirstFailure
import WhereClause.Proofs.Search
import WhereClause.Proofs.Quoting
import WhereClause.Proofs.Synonyms
import WhereClause.Proofs.Rows
import WhereClause.Proofs.Nulls
import WhereClause.Proofs.Unquoting
import WhereClause.Proofs.Dispatch
import WhereClause.Proofs.Leaves
import WhereClause.Proofs.Vocabulary
import WhereClause.Proofs.Settings
import WhereClause.Proofs.Documents
import WhereClause.Proofs.TwosComplement
import WhereClause.Proofs.Sink.Candidates
import WhereClause.Proofs.NormalForm
import WhereClause.Proofs.Termination
