import BoundSql.Session
import BoundSql.Proofs.Related
import BoundSql.Proofs.Sql.Term
import BoundSql.Proofs.Sql.Lexeme
import BoundSql.Proofs.Sql.Reading
import BoundSql.Proofs.Clause.Outline
import BoundSql.Proofs.Clause.Rendering
import BoundSql.Proofs.Clause.Compiled
import BoundSql.Proofs.Clause.ReadBack
import BoundSql.Proofs.Sql.Truth
import BoundSql.Proofs.Clause.FreeText
import BoundSql.Proofs.Session.GuardedWrite
import BoundSql.Proofs.Filter.Strictness
import BoundSql.Proofs.Clause.Strictness
import BoundSql.Proofs.Filter.Checked
import BoundSql.Proofs.Clause.Equalities
import BoundSql.Proofs.Clause.FilterForms
import BoundSql.Proofs.Clause.FieldValues
import BoundSql.Proofs.Filter.Masking
import BoundSql.Proofs.Clause.Shape
import BoundSql.Proofs.Insert.Stored
import BoundSql.Proofs.Session.ValueBlind
import BoundSql.Proofs.Clause.Draft
import BoundSql.Proofs.Session.Draft
import BoundSql.Proofs.Session.Aligned
import BoundSql.Proofs.Sql.Sentence
import BoundSql.Proofs.Clause.Grammar
import BoundSql.Proofs.Filter.Agreement
import BoundSql.Proofs.Clause.RawData
import BoundSql.Proofs.Session.Transaction
import BoundSql.Proofs.Session.Protocol
import BoundSql.Proofs.Clause.Pruning
import BoundSql.Proofs.Clause.Conjunction
import BoundSql.Proofs.Insert.Bulk
import BoundSql.Proofs.Insert.Complete
import BoundSql.Proofs.Ident
import BoundSql.Proofs.Sql.Percent
import BoundSql.Proofs.Clause.Percent
import BoundSql.Proofs.Session.Percent
import BoundSql.Proofs.Insert.ArrayText
import BoundSql.Proofs.Text.Case
import BoundSql.Proofs.Filter.Spelling
import BoundSql.Proofs.Clause.Spelling
import BoundSql.Proofs.Session.Written
import BoundSql.Proofs.Session.OwnTable
import BoundSql.Proofs.Insert.ArrayPieces
import BoundSql.Proofs.Filter.Salvage
import BoundSql.Proofs.Clause.Comparison
import BoundSql.Proofs.Clause.Membership
import BoundSql.Proofs.Sql.Like
import BoundSql.Proofs.Clause.Substring
import BoundSql.Proofs.Refusal
import BoundSql.Proofs.Clause.Offence
import BoundSql.Proofs.Insert.RowByRow
import BoundSql.Proofs.Insert.Collision
import BoundSql.Proofs.Value.JsonText
import BoundSql.Proofs.Value.Elements
import BoundSql.Proofs.Insert.Structured
import BoundSql.Proofs.Insert.Composition
import BoundSql.Proofs.Text.Pieces
import BoundSql.Proofs.Clause.Concatenation
import BoundSql.Proofs.Session.SingleRow
import BoundSql.Proofs.Ident.Passes
import BoundSql.Proofs.Ident.SnakeCase
import BoundSql.Proofs.Ident.Spelling
import BoundSql.Proofs.Insert.Bindable
import BoundSql.Proofs.Path
import BoundSql.Proofs.Clause.Columns
import BoundSql.Proofs.Clause.Qualified
import BoundSql.Proofs.Clause.Naming
import BoundSql.Proofs.Sql.Insertion
import BoundSql.Proofs.Session.Insertion
import BoundSql.Proofs.Text.Digits
import BoundSql.Proofs.Json.Number
import BoundSql.Proofs.Json.Strings
import BoundSql.Proofs.Json.Grammar
import BoundSql.Proofs.Json.Reader
import BoundSql.Proofs.Json.Written
import BoundSql.Proofs.Insert.RoundTrip
import BoundSql.Proofs.Json.Outside
import BoundSql.Proofs.Insert.Finite
import BoundSql.Proofs.Filter.Decoding
import BoundSql.Proofs.FieldList
import BoundSql.Proofs.Json.Arranged
import BoundSql.Proofs.Value.Reordered
import BoundSql.Proofs.Value.Settled
import BoundSql.Proofs.Insert.Steady
