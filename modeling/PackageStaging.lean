import PackageStaging.Main
import PackageStaging.Proofs.CommandLine.LastWins
import PackageStaging.Proofs.Payload.ReadBack
import PackageStaging.Proofs.Push.Exclusion
import PackageStaging.Proofs.Staging.Edits
import PackageStaging.Proofs.Staging.Loading
import PackageStaging.Proofs.Staging.Ordered
import PackageStaging.Proofs.Json.Yields
import PackageStaging.Proofs.Wire.Persistence
import PackageStaging.Proofs.Wire.Reloading
import PackageStaging.Proofs.Payload.Origins
import PackageStaging.Proofs.CommandLine.SectionOrder
import PackageStaging.Proofs.Push.Acceptance
import PackageStaging.Proofs.CommandLine.Interleaving
import PackageStaging.Proofs.CommandLine.Survival
import PackageStaging.Proofs.Push.Sinks
import PackageStaging.Proofs.Timestamp.Calendar
import PackageStaging.Proofs.Timestamp.Reading
import PackageStaging.Proofs.Wire.Sessions
import PackageStaging.Proofs.CommandLine.Proper
import PackageStaging.Proofs.CommandLine.Status
import PackageStaging.Proofs.State.Interruption
import PackageStaging.Proofs.CommandLine.Tokens
import PackageStaging.Proofs.Staging.Union
import PackageStaging.Proofs.Staging.Permuting
import PackageStaging.Proofs.Staging.Undoing
import PackageStaging.Proofs.Payload.Refusal
import PackageStaging.Proofs.Payload.Lookup
import PackageStaging.Proofs.Session.Machine
import PackageStaging.Proofs.Session.Addresses
import PackageStaging.Proofs.State.Twins
import PackageStaging.Proofs.CommandLine.Isolation
import PackageStaging.Proofs.Staging.Slots
import PackageStaging.Proofs.Listing
import PackageStaging.Proofs.Push.Records
import PackageStaging.Proofs.Push.Sending
