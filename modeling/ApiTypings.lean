import ApiTypings.Checked.Session
import ApiTypings.CommandLine.Run
import ApiTypings.Compilation
import ApiTypings.Docs.Write
import ApiTypings.Main
import ApiTypings.Proofs.Ancestry.Climb
import ApiTypings.Proofs.Ancestry.Lineage
import ApiTypings.Proofs.Docs.Sameness
import ApiTypings.Proofs.Ancestry.Deduplication
import ApiTypings.Proofs.Ancestry.Survival
import ApiTypings.Proofs.Ancestry.Nearest
import ApiTypings.Proofs.Docs.Encoding
import ApiTypings.Proofs.Ancestry.Completeness
import ApiTypings.Proofs.Checked.Made
import ApiTypings.Proofs.Rules.Answers
import ApiTypings.Proofs.Emission.Made
import ApiTypings.Proofs.Emission.Ownership
import ApiTypings.Proofs.Declaration.Identifiers
import ApiTypings.Proofs.Emission.Links
import ApiTypings.Proofs.Text.Uncomment
import ApiTypings.Proofs.Layout.Comments
import ApiTypings.Proofs.Checked.Unknown
import ApiTypings.Proofs.Declaration.References
import ApiTypings.Proofs.Checked.Accounts
import ApiTypings.Proofs.Rules.Accounts
import ApiTypings.Proofs.Emission.Accounts
import ApiTypings.Proofs.CommandLine.KnownTypes
import ApiTypings.Proofs.Emission.Acyclic
import ApiTypings.Proofs.Emission.Mismatches
import ApiTypings.Proofs.Emission.Shapes
import ApiTypings.Proofs.CommandLine.Validity
import ApiTypings.Proofs.Checked.Reserved
import ApiTypings.Proofs.Rules.Reserved
import ApiTypings.Proofs.Compilation.ReservedNames
import ApiTypings.Proofs.Json.Tokens
import ApiTypings.Proofs.Json.Parts
import ApiTypings.Proofs.Json.Values
import ApiTypings.Proofs.Json.Records
import ApiTypings.Proofs.Docs.RoundTrip
import ApiTypings.Proofs.Declaration.Untyped
import ApiTypings.Proofs.Emission.Locality
import ApiTypings.Proofs.Emission.Order
import ApiTypings.Proofs.CommandLine.Agreement
import ApiTypings.Proofs.Layout.Tokens
import ApiTypings.Proofs.Layout.Unambiguous
import ApiTypings.Proofs.Ancestry.Unlinked
import ApiTypings.Proofs.Rules.Log
import ApiTypings.Proofs.Emission.Overloads
import ApiTypings.Proofs.Layout.Written
import ApiTypings.Proofs.Text.Codes
import ApiTypings.Proofs.Layout.Accents
import ApiTypings.Proofs.Ancestry.Idempotence
import ApiTypings.Proofs.Checked.Located
import ApiTypings.Proofs.Rules.Located
import ApiTypings.Proofs.Emission.Located
import ApiTypings.Proofs.Compilation.Locations
import ApiTypings.Proofs.Layout.Indentation
import ApiTypings.Proofs.Emission.Parameters
import ApiTypings.Proofs.Ancestry.Turns
import ApiTypings.Proofs.Docs.Framing
import ApiTypings.Proofs.Layout.Width
import ApiTypings.Proofs.Compilation.Width
