import PgFrontend.Auth.Nonce
import PgFrontend.Proofs.Column.DataRow
import PgFrontend.Proofs.Column.Description
import PgFrontend.Proofs.Digest.Stretching
import PgFrontend.Proofs.Exchange.FirstRequest
import PgFrontend.Proofs.Exchange.Opening
import PgFrontend.Proofs.Exchange.Outcome
import PgFrontend.Proofs.Exchange.Secrecy
import PgFrontend.Proofs.Octets.Plain
import PgFrontend.Proofs.Scram.Mutual
import PgFrontend.Proofs.ServerError
import PgFrontend.Proofs.Session.Cancellation
import PgFrontend.Proofs.Session.Names
import PgFrontend.Proofs.Session.Probe
import PgFrontend.Proofs.Session.Queries
import PgFrontend.Proofs.Session.Reports
import PgFrontend.Proofs.Session.Schema
import PgFrontend.Proofs.Session.Shortage
import PgFrontend.Proofs.Session.Transcript
import PgFrontend.Proofs.Value.Column
import PgFrontend.Proofs.Value.Dispatch
import PgFrontend.Proofs.Value.Nulls
import PgFrontend.Proofs.Value.Production
import PgFrontend.Proofs.Value.RoundTrip
import PgFrontend.Proofs.Wire.Messages
import PgFrontend.Proofs.Wire.OptionOrder
import PgFrontend.Proofs.Wire.Options
import PgFrontend.Proofs.Wire.Startup
import PgFrontend.Session.Factory
import PgFrontend.Proofs.Digest.Stretching
