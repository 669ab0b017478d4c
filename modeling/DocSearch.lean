import DocSearch.Archive.Perform
import DocSearch.Main
import DocSearch.Proofs.Keyword.Counts
import DocSearch.Proofs.Keyword.Following
import DocSearch.Proofs.Repository.FolderWalk
import DocSearch.Proofs.Saved.WindowRuns
import DocSearch.Proofs.Query.OwnWords
import DocSearch.Proofs.Query.PropertyFilters
import DocSearch.Proofs.Saved.Interleaving
import DocSearch.Proofs.Saved.StoredQuery
import DocSearch.Proofs.Saved.Visits
import DocSearch.Proofs.Repository.PathEntries
import DocSearch.Proofs.Archive.Paging
import DocSearch.Proofs.Saved.Confinement
import DocSearch.Proofs.Property.Definitions
import DocSearch.Proofs.Property.Reloading
import DocSearch.Proofs.Archive.Views
import DocSearch.Proofs.Index.Writers
import DocSearch.Proofs.Query.StoredValue
import DocSearch.Proofs.Query.OtherProperties
import DocSearch.Proofs.Query.RegularExpression
import DocSearch.Proofs.Query.LastModified
import DocSearch.Proofs.Query.ReservedPaths
import DocSearch.Proofs.Query.SingleDomains
import DocSearch.Proofs.Index.ShownTerms
