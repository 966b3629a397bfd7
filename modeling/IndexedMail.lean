import IndexedMail.Engine.Script
import IndexedMail.Main
import IndexedMail.Proofs.Report.Saving
import IndexedMail.Proofs.Report.Shown
import IndexedMail.Proofs.Listing.Parts
import IndexedMail.Proofs.Query.Grammar
import IndexedMail.Proofs.Service.History
import IndexedMail.Proofs.Service.Isolation
import IndexedMail.Proofs.Service.Merging
import IndexedMail.Proofs.Engine.Starting
import IndexedMail.Proofs.Log.History
import IndexedMail.Proofs.Query.Markers
import IndexedMail.Proofs.Service.Closing
import IndexedMail.Proofs.Listing.Directory
import IndexedMail.Proofs.Service.Selection
import IndexedMail.Proofs.Settings.Layering
import IndexedMail.Proofs.Query.Residual
import IndexedMail.Proofs.Settings.Faults
import IndexedMail.Proofs.CommandLine.Translating
import IndexedMail.Proofs.Service.Inheritance
import IndexedMail.Proofs.Environment.Expansion
import IndexedMail.Proofs.CommandLine.Showing
