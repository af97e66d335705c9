import Debitmetre.Wire.Json.Prefix
import Debitmetre.Wire.Json.RoundTrip
import Debitmetre.Wire.Json.Printed
import Debitmetre.Wire.Json.Derive
import Debitmetre.Wire.Json.Value
import Debitmetre.Wire.Json.Repeated
import Debitmetre.Wire.Json.Members
import Debitmetre.Wire.Json.Written
import Debitmetre.Wire.Lines
import Debitmetre.Wire.Url
import Debitmetre.Wire.Percent
import Debitmetre.Wire.Header
import Debitmetre.Wire.Hex
import Debitmetre.Wire.SocketAddr
import Debitmetre.Wire.Toml
import Debitmetre.Wire.Sse
import Debitmetre.Wire.Decoding
import Debitmetre.Wire.Utf8
import Debitmetre.Wire.Json.Framing
import Debitmetre.Wire.Truncation
import Debitmetre.Usage.Record
import Debitmetre.Usage.Text
import Debitmetre.Usage.Writer
import Debitmetre.Usage.Observer
import Debitmetre.Usage.Framing
import Debitmetre.Usage.Extraction
import Debitmetre.Usage.Counters
import Debitmetre.Usage.Basis
import Debitmetre.Usage.Facts
import Debitmetre.Usage.Effort
import Debitmetre.Gateway.Audit
import Debitmetre.Gateway.Transports
import Debitmetre.Gateway.Interruption
import Debitmetre.Gateway.Config
import Debitmetre.Gateway.ConfigFile
import Debitmetre.Gateway.ConfigDocument
import Debitmetre.Gateway.Route
import Debitmetre.Gateway.Headers
import Debitmetre.Gateway.Relay
import Debitmetre.Gateway.Transparency
import Debitmetre.Gateway.Cancellation
import Debitmetre.Gateway.Lifecycle
import Debitmetre.Gateway.AuditWriter
import Debitmetre.Gateway.Service
import Debitmetre.Gateway.Surroundings
import Debitmetre.Gateway.Progress
import Debitmetre.Gateway.Auditing
import Debitmetre.Gateway.Process
import Debitmetre.Gateway.Attribution
import Debitmetre.Gateway.Effort
import Debitmetre.Gateway.Spelling
import Debitmetre.Summary.Read
import Debitmetre.Summary.Accounting
import Debitmetre.Summary.Conservation
import Debitmetre.Summary.Recovery
import Debitmetre.Summary.Sessions
import Debitmetre.Summary.Render
import Debitmetre.Summary.Labels
import Debitmetre.Summary.Report
import Debitmetre.Summary.Service
import Debitmetre.Summary.Remains
import Debitmetre.Summary.Installation
import Debitmetre.Summary.Growth
import Debitmetre.Summary.Warnings
import Debitmetre.Summary.Charges
import Debitmetre.Smoke.CountAudit
import Debitmetre.Smoke.LoadReport
import Debitmetre.Smoke.Soundness
import Debitmetre.Smoke.Upstream
import Debitmetre.Smoke.Reconciliation
import Debitmetre.Smoke.Arguments
import Debitmetre.Command.Arguments
