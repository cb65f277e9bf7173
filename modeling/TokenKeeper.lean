import TokenKeeper.Main
import TokenKeeper.Proofs.Redirects
import TokenKeeper.Proofs.Renewal
import TokenKeeper.Proofs.Standing
import TokenKeeper.Proofs.Upgrade
import TokenKeeper.Proofs.Conclusion
import TokenKeeper.Proofs.Keeping
import TokenKeeper.Proofs.Kinds
import TokenKeeper.Proofs.Secrets
import TokenKeeper.Proofs.Placeholders
import TokenKeeper.Time.Span
import TokenKeeper.Proofs.Timestamps
import TokenKeeper.Proofs.Deadline
import TokenKeeper.Proofs.Records
import TokenKeeper.Proofs.Resolution
import TokenKeeper.Proofs.Accepted
import TokenKeeper.Client.Fleet
import TokenKeeper.Proofs.Counting
import TokenKeeper.Proofs.Injection
import TokenKeeper.Proofs.Rendering
import TokenKeeper.Proofs.Requests
import TokenKeeper.Proofs.Bodies
import TokenKeeper.Proofs.Slot.Scalar
import TokenKeeper.Proofs.Slot.Token
import TokenKeeper.Proofs.Slot.Scanner
import TokenKeeper.Proofs.Slot.Plain
import TokenKeeper.Proofs.Slot.Twin
import TokenKeeper.Proofs.Slot.Layout
import TokenKeeper.Proofs.Slot.Crossing
import TokenKeeper.Proofs.Slot.Tokens
import TokenKeeper.Proofs.Slot.Document
import TokenKeeper.Proofs.Slot.Reading
import TokenKeeper.Proofs.Slot.Sections
import TokenKeeper.Proofs.Material
import TokenKeeper.Config.Calls
import TokenKeeper.Proofs.Calls
import TokenKeeper.Proofs.Joining
import TokenKeeper.Proofs.Spellings
import TokenKeeper.Proofs.Slot.Loading
import TokenKeeper.Proofs.Entries
import TokenKeeper.Proofs.Construction
import TokenKeeper.Proofs.Invocations
