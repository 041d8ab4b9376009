import RowPolicy.Builder
import RowPolicy.Database.Shared
import RowPolicy.Main
import RowPolicy.Plan.Json
import RowPolicy.Proofs.Admin.Documents
import RowPolicy.Proofs.Access.Confinement
import RowPolicy.Proofs.Dependence
import RowPolicy.Proofs.Access.Rebuild
import RowPolicy.Proofs.Record.Forms
import RowPolicy.Proofs.Access.Judgement
import RowPolicy.Proofs.Access.Fetched
import RowPolicy.Proofs.Store.Fingerprints
import RowPolicy.Proofs.Access.PropertyFilters
import RowPolicy.Proofs.Admin.Purposes
import RowPolicy.Proofs.Command.Params
