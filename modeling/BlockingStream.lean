import BlockingStream.Main
import BlockingStream.Session.Play
import BlockingStream.Text.Lines
import BlockingStream.Proofs.Inbound
import BlockingStream.Proofs.Deadline
import BlockingStream.Proofs.Outbound
import BlockingStream.Proofs.Wakeup
import BlockingStream.Proofs.Recorded
import BlockingStream.Proofs.Single
import BlockingStream.Proofs.Handle
import BlockingStream.Proofs.ReadOutcome
import BlockingStream.Proofs.WriteOutcome
import BlockingStream.Proofs.Ownership
import BlockingStream.Proofs.Phase
import BlockingStream.Proofs.Terminal
import BlockingStream.Proofs.Leftover
import BlockingStream.Proofs.Fate
import BlockingStream.Proofs.Sleep
import BlockingStream.Proofs.Isolation
import BlockingStream.Proofs.Detached
import BlockingStream.Proofs.Reordering
import BlockingStream.Proofs.Directions
import BlockingStream.Proofs.Backpressure
import BlockingStream.Proofs.Stage
import BlockingStream.Proofs.PlainInput
import BlockingStream.Proofs.PlainOutput
import BlockingStream.Proofs.Refusal
import BlockingStream.Proofs.ConnectOutcome
import BlockingStream.Proofs.Labelled
import BlockingStream.Proofs.Probe
import BlockingStream.Proofs.Carrier
import BlockingStream.Proofs.Hint
import BlockingStream.Proofs.Addresses
import BlockingStream.Proofs.ServiceStart
