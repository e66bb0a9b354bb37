import Outreach.Engine.Tally
import Outreach.Main
import Outreach.Rehearsal.Session
import Outreach.Rehearsal.Walk
import Outreach.Proofs.Run.Soundness
import Outreach.Proofs.Run.Hopeless
import Outreach.Proofs.Run.Timing
import Outreach.Proofs.System.Returns
import Outreach.Proofs.Walk.Cancellation
import Outreach.Proofs.Run.Cancellation
import Outreach.Proofs.System.Cancellation
import Outreach.Proofs.Run.Strays
import Outreach.Proofs.Funnel.Examination
import Outreach.Proofs.Store.Removal
import Outreach.Proofs.System.Stores
import Outreach.Proofs.System.Occupancy
import Outreach.Proofs.System.Isolation
import Outreach.Proofs.Variables.Filling
import Outreach.Proofs.Executor.Outcome
import Outreach.Proofs.Store.Listing
import Outreach.Proofs.Funnel.Recall
import Outreach.Proofs.System.Refusal
import Outreach.Proofs.Execution.Replay
import Outreach.Proofs.Walk.Trials
import Outreach.Proofs.Run.Replay
import Outreach.Proofs.Store.Purging
import Outreach.Proofs.Executor.MessageText
import Outreach.Proofs.Number.Whole
import Outreach.Proofs.Walk.Onward
import Outreach.Proofs.Variables.Sameness
import Outreach.Proofs.Funnel.Guards
import Outreach.Proofs.Variables.NumberText
import Outreach.Proofs.Variables.RoundTrip
import Outreach.Proofs.Variables.Payload
import Outreach.Proofs.Configuration.Override
import Outreach.Proofs.System.Counting
import Outreach.Proofs.Store.Newest
import Outreach.Proofs.Delivery.ContactPath
import Outreach.Proofs.Variables.Lookup
import Outreach.Proofs.Funnel.Entry
import Outreach.Proofs.Program.Assignment
