import MarketAlerts.CommandLine.Rehearsal
import MarketAlerts.Dispatch.Session
import MarketAlerts.Engine.Session
import MarketAlerts.Main
import MarketAlerts.Monitor.Session
import MarketAlerts.Proofs.Audit.Writes
import MarketAlerts.Proofs.Channel.Accounting
import MarketAlerts.Proofs.Channel.Patches
import MarketAlerts.Proofs.Channel.Popups
import MarketAlerts.Proofs.Configuration.Acceptance
import MarketAlerts.Proofs.Configuration.Assembly
import MarketAlerts.Proofs.Configuration.Indicators
import MarketAlerts.Proofs.Decimal.Range
import MarketAlerts.Proofs.Dispatch.Histories
import MarketAlerts.Proofs.Dispatch.Reports
import MarketAlerts.Proofs.Dispatch.Settings
import MarketAlerts.Proofs.Engine.Breakdown
import MarketAlerts.Proofs.Engine.Crossings
import MarketAlerts.Proofs.Engine.Draining
import MarketAlerts.Proofs.Engine.DueDates
import MarketAlerts.Proofs.Engine.Firings
import MarketAlerts.Proofs.Engine.Flights
import MarketAlerts.Proofs.Engine.Isolation
import MarketAlerts.Proofs.Engine.Lobby
import MarketAlerts.Proofs.Engine.Runs
import MarketAlerts.Proofs.Engine.Serial
import MarketAlerts.Proofs.Engine.Strategies
import MarketAlerts.Proofs.Engine.Tickets
import MarketAlerts.Proofs.Evaluation.History
import MarketAlerts.Proofs.Evaluation.Limits
import MarketAlerts.Proofs.Indicator.Locality
import MarketAlerts.Proofs.Monitor.Saving
import MarketAlerts.Proofs.Monitor.SideBySide
import MarketAlerts.Proofs.Template.Alerts
import MarketAlerts.Proofs.Template.Amounts
import MarketAlerts.Proofs.Template.Composition
import MarketAlerts.Proofs.Template.Exports
import MarketAlerts.Proofs.Template.Grammar
import MarketAlerts.Proofs.Template.Markdown
import MarketAlerts.Proofs.Template.Markup
import MarketAlerts.Proofs.Template.Rendering
import MarketAlerts.Proofs.Text.Ellipsis
import MarketAlerts.Proofs.Watchlist.Histories
import MarketAlerts.Proofs.Watchlist.Registrations
