import VoteGossip.Gossip.ConfigJson
import VoteGossip.Gossip.Schedule
import VoteGossip.Json.Identity
import VoteGossip.Pool.ConfigJson
import VoteGossip.Proofs.Log.Invariant
import VoteGossip.Proofs.Log.Sparse
import VoteGossip.Proofs.Pool.Index
import VoteGossip.Proofs.Gossip.Routine
import VoteGossip.Proofs.Gossip.Run
import VoteGossip.Proofs.Gossip.Cursor
import VoteGossip.Proofs.Gossip.Delivery
import VoteGossip.Proofs.Gossip.Order
import VoteGossip.Proofs.Registry.Roster
import VoteGossip.Proofs.Gossip.FrameLimit
import VoteGossip.Proofs.Gossip.Provenance
import VoteGossip.Proofs.Gossip.Echo
import VoteGossip.Proofs.RoundTrip
import VoteGossip.Proofs.Acceptance
import VoteGossip.Proofs.Pool.History
import VoteGossip.Proofs.Gossip.Handles
import VoteGossip.Proofs.Gossip.Shutdown
import VoteGossip.Proofs.Log.Positions
import VoteGossip.Proofs.Gossip.Due
import VoteGossip.Proofs.Gossip.Service
import VoteGossip.Proofs.Gossip.Undisturbed
import VoteGossip.Proofs.Gossip.Timetable
import VoteGossip.Proofs.Gossip.Isolation
import VoteGossip.Proofs.Wire.Economy
import VoteGossip.Proofs.Relay
import VoteGossip.Proofs.Pool.Refusal
import VoteGossip.Proofs.Pool.Admission
import VoteGossip.Proofs.Gossip.Aftermath
import VoteGossip.Proofs.Log.Waiting
import VoteGossip.Proofs.Pool.Commit
import VoteGossip.Proofs.Registry.Peak
import VoteGossip.Proofs.Gossip.Faults
import VoteGossip.Proofs.Gossip.Activation
import VoteGossip.Proofs.Gossip.Lag
import VoteGossip.Proofs.ConfigText
import VoteGossip.Proofs.Serialization
