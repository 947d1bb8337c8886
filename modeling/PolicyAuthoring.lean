import PolicyAuthoring.Main
import PolicyAuthoring.Proofs.Value.Key
import PolicyAuthoring.Proofs.Value.Table
import PolicyAuthoring.Proofs.Value.Strip
import PolicyAuthoring.Proofs.Catalog
import PolicyAuthoring.Proofs.Filing
import PolicyAuthoring.Proofs.Compilation
import PolicyAuthoring.Proofs.Reopening
import PolicyAuthoring.Proofs.RoundTrip
import PolicyAuthoring.Proofs.Rereading
import PolicyAuthoring.Proofs.Resaving
import PolicyAuthoring.Proofs.NormalForm
import PolicyAuthoring.Proofs.Sentence
import PolicyAuthoring.Proofs.Summary
import PolicyAuthoring.Proofs.Number.Binary64
import PolicyAuthoring.Proofs.Number.Shortest
import PolicyAuthoring.Proofs.Number.Decimal
import PolicyAuthoring.Proofs.Yaml.Numeral
import PolicyAuthoring.Proofs.Yaml.Quoted
import PolicyAuthoring.Proofs.Yaml.Layout
import PolicyAuthoring.Proofs.Yaml.Flow
import PolicyAuthoring.Proofs.Yaml.Interchange
import PolicyAuthoring.Proofs.Yaml.Portable
import PolicyAuthoring.Proofs.Storing
import PolicyAuthoring.Proofs.Reloading
import PolicyAuthoring.Proofs.Conditions
import PolicyAuthoring.Proofs.Rules
import PolicyAuthoring.Proofs.Settled
import PolicyAuthoring.Proofs.Deletion
import PolicyAuthoring.Proofs.Indexing
import PolicyAuthoring.Proofs.Loading
import PolicyAuthoring.Proofs.CommandLine.Run
import PolicyAuthoring.Proofs.CommandLine.Output
import PolicyAuthoring.Proofs.Value.Writable
import PolicyAuthoring.Proofs.Speaking
import PolicyAuthoring.Proofs.CommandLine.Completion
import PolicyAuthoring.Proofs.Collision
import PolicyAuthoring.Proofs.Unmatched
import PolicyAuthoring.Proofs.Yaml.Construction
import PolicyAuthoring.Proofs.Acceptance
import PolicyAuthoring.Proofs.ShortSummary
import PolicyAuthoring.Proofs.Settings
import PolicyAuthoring.Proofs.Exporting
import PolicyAuthoring.Proofs.Alternatives
import PolicyAuthoring.Proofs.EnglishList
import PolicyAuthoring.Proofs.Explanation
import PolicyAuthoring.Proofs.Refusal
import PolicyAuthoring.Proofs.Session
