import OpenApiClient.Document.Writer
import OpenApiClient.Main
import OpenApiClient.Proofs.Client.Arguments
import OpenApiClient.Proofs.Client.ClassNames
import OpenApiClient.Proofs.Client.Direct
import OpenApiClient.Proofs.Client.Responses
import OpenApiClient.Proofs.Hint.Acyclic
import OpenApiClient.Proofs.Hint.NullMember
import OpenApiClient.Proofs.Hint.Nullable
import OpenApiClient.Proofs.Index.Copies
import OpenApiClient.Proofs.Index.Order
import OpenApiClient.Proofs.Php.Autoloading
import OpenApiClient.Proofs.Php.Comments
import OpenApiClient.Proofs.Php.Generation
import OpenApiClient.Proofs.Php.NullTests
import OpenApiClient.Proofs.Php.Variables
import OpenApiClient.Proofs.Reading
import OpenApiClient.Proofs.Reference.Session
import OpenApiClient.Proofs.Reference.Written
import OpenApiClient.Reference.Session
import OpenApiClient.Proofs.Json.Numerals
import OpenApiClient.Proofs.Json.Rendered
import OpenApiClient.Proofs.Json.Fits
import OpenApiClient.Proofs.Restoring.Basic
import OpenApiClient.Proofs.Restoring.Record
import OpenApiClient.Proofs.Restoring.References
import OpenApiClient.Proofs.Restoring.Values
import OpenApiClient.Proofs.Restoring.Schema
import OpenApiClient.Proofs.Restoring.Document
import OpenApiClient.Proofs.Index.Parts
import OpenApiClient.Proofs.Reference.Endless
import OpenApiClient.Proofs.Client.Flattened
import OpenApiClient.Proofs.Client.Parameters
import OpenApiClient.Proofs.Php.Dispatch
import OpenApiClient.Proofs.Php.CaseNames
import OpenApiClient.Proofs.Php.EnumTypes
import OpenApiClient.Proofs.Php.Contract
import OpenApiClient.Proofs.Php.OptionalTypes
import OpenApiClient.Proofs.Reference.Recorded
import OpenApiClient.Proofs.Naming.ComponentKey
import OpenApiClient.Proofs.Naming.Identifiers
import OpenApiClient.Proofs.Php.IntLiterals
import OpenApiClient.Proofs.Placeholders
import OpenApiClient.Proofs.Php.QuotedText
