import Downlink.Allocator.Scripted
import Downlink.Controller.Watchdog
import Downlink.Introspection
import Downlink.Json.Reader
import Downlink.Main
import Downlink.Proofs.Passes
import Downlink.Proofs.Ladder
import Downlink.Proofs.Waterfall.Basic
import Downlink.Proofs.Waterfall.Settling
import Downlink.Proofs.Coherence
import Downlink.Proofs.Waterfall.Accounting
import Downlink.Proofs.Waterfall.Optimality
import Downlink.Proofs.Waterfall.Monotonicity
import Downlink.Proofs.Sameness
import Downlink.Proofs.Waterfall.Isolation
import Downlink.Proofs.Controller.Records
import Downlink.Proofs.Controller.Limits
import Downlink.Proofs.Controller.History
import Downlink.Proofs.Controller.Log
import Downlink.Proofs.SortedMap
import Downlink.Proofs.SameRecords
import Downlink.Proofs.Controller.Publication
import Downlink.Proofs.Signaling
import Downlink.Proofs.Controller.Selection
import Downlink.Proofs.Listing
import Downlink.Proofs.Rollback
import Downlink.Proofs.Controller.Listing
import Downlink.Proofs.Controller.Estimates
import Downlink.Proofs.Controller.Subscribers
import Downlink.Proofs.Reordering
import Downlink.Proofs.Replay
import Downlink.Proofs.Waterfall.Plenty
import Downlink.Proofs.Waterfall.Presence
import Downlink.Proofs.Controller.Reordering
import Downlink.Proofs.Controller.Staleness
import Downlink.Proofs.Priority
import Downlink.Proofs.Slots
import Downlink.Proofs.Termination
import Downlink.Proofs.Waterfall.Neutrality
import Downlink.Proofs.Rearrangement
import Downlink.Proofs.RoundTrip
import Downlink.Proofs.Gate
import Downlink.Proofs.Waterfall.Improvement
