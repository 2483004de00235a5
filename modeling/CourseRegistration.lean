import CourseRegistration.Main
import CourseRegistration.Office
import CourseRegistration.Proofs.Catalog
import CourseRegistration.Proofs.Decision
import CourseRegistration.Proofs.Effects
import CourseRegistration.Proofs.Ordered
import CourseRegistration.Proofs.SeatBounds
import CourseRegistration.Proofs.SeatMoves
import CourseRegistration.Proofs.SectionSteps
import CourseRegistration.Proofs.Seats
import CourseRegistration.Settings
import CourseRegistration.Snapshot.Build
import CourseRegistration.Stored.Entry
import CourseRegistration.Stored.Snapshot
import CourseRegistration.Stored.View
import CourseRegistration.Proofs.Ledger
import CourseRegistration.Proofs.Consistency
import CourseRegistration.Proofs.Snapshot
import CourseRegistration.Proofs.Agreement
import CourseRegistration.Proofs.Replay
import CourseRegistration.Proofs.Atomicity
import CourseRegistration.Proofs.Rotation.Basic
import CourseRegistration.Proofs.Switching
import CourseRegistration.Proofs.Rotation.Invariant
import CourseRegistration.Proofs.Rotation.Convergence
import CourseRegistration.Proofs.Waiting
import CourseRegistration.Proofs.StudentSteps
import CourseRegistration.Proofs.Units
import CourseRegistration.Proofs.Rules
import CourseRegistration.Proofs.Hours
import CourseRegistration.Proofs.Loading
import CourseRegistration.Proofs.Reload
import CourseRegistration.Proofs.Acceptance
import CourseRegistration.Proofs.Bystanders
import CourseRegistration.Proofs.Accounts
import CourseRegistration.Proofs.Delivery
import CourseRegistration.Proofs.Relisting
import CourseRegistration.Proofs.Independence
import CourseRegistration.Proofs.Reordering
import CourseRegistration.Proofs.JsonText
import CourseRegistration.Proofs.Spelling
import CourseRegistration.Proofs.UnitLedger
import CourseRegistration.Proofs.UnitChecks
import CourseRegistration.Proofs.Enrollment
import CourseRegistration.Proofs.GroupChange
import CourseRegistration.Proofs.Packing
import CourseRegistration.Proofs.Overlap
import CourseRegistration.Proofs.EntrySpelling
import CourseRegistration.Proofs.Queries
import CourseRegistration.Proofs.Actions
import CourseRegistration.Proofs.Undoing
import CourseRegistration.Proofs.Resizing
import CourseRegistration.Proofs.Listing
import CourseRegistration.Proofs.Reporting
import CourseRegistration.Proofs.Window
