import CampusQuery.Main
import CampusQuery.Store.Tree
import CampusQuery.Proofs.Data.Alike
import CampusQuery.Proofs.Data.Conformance
import CampusQuery.Proofs.Data.Dataset
import CampusQuery.Proofs.Data.Dictionary
import CampusQuery.Proofs.Data.Record
import CampusQuery.Proofs.Data.Sorting
import CampusQuery.Proofs.Data.Value
import CampusQuery.Proofs.Except
import CampusQuery.Proofs.Json.Raw
import CampusQuery.Proofs.Json.ShortLiteral
import CampusQuery.Proofs.Json.Truncation
import CampusQuery.Proofs.Number.CentMean
import CampusQuery.Proofs.Number.Extremes
import CampusQuery.Proofs.Number.Mean
import CampusQuery.Proofs.Number.Zero
import CampusQuery.Proofs.Query.Acceptance
import CampusQuery.Proofs.Query.Aggregate
import CampusQuery.Proofs.Query.Clauses
import CampusQuery.Proofs.Query.Columns
import CampusQuery.Proofs.Query.Congruence
import CampusQuery.Proofs.Query.Duality
import CampusQuery.Proofs.Query.Encoding
import CampusQuery.Proofs.Query.Equality
import CampusQuery.Proofs.Query.Filters
import CampusQuery.Proofs.Query.Grammar
import CampusQuery.Proofs.Query.Grouping
import CampusQuery.Proofs.Query.Invariant
import CampusQuery.Proofs.Query.Limit
import CampusQuery.Proofs.Query.Listing
import CampusQuery.Proofs.Query.Mention
import CampusQuery.Proofs.Query.Order
import CampusQuery.Proofs.Query.Partition
import CampusQuery.Proofs.Query.Permutation
import CampusQuery.Proofs.Query.Plan
import CampusQuery.Proofs.Query.Ranking
import CampusQuery.Proofs.Query.Regex
import CampusQuery.Proofs.Query.Resolver
import CampusQuery.Proofs.Query.Scope
import CampusQuery.Proofs.Query.Selection
import CampusQuery.Proofs.Query.ShortCircuit
import CampusQuery.Proofs.Query.Soundness
import CampusQuery.Proofs.Query.Wildcard
import CampusQuery.Proofs.Shell.Response
import CampusQuery.Proofs.Store.Canonical
import CampusQuery.Proofs.Store.Codec
import CampusQuery.Proofs.Store.Directory
import CampusQuery.Proofs.Store.Footprint
import CampusQuery.Proofs.Store.Loading
import CampusQuery.Proofs.Store.Refinement
import CampusQuery.Proofs.Store.TornWrite
import CampusQuery.Proofs.Store.Upkeep
