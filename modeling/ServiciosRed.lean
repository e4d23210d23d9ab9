import ServiciosRed.Deletion
import ServiciosRed.Acceptance
import ServiciosRed.Queries
import ServiciosRed.Domains
import ServiciosRed.Programs
import ServiciosRed.Commutation
import ServiciosRed.Concurrency
import ServiciosRed.Monitorizacion
import ServiciosRed.Python
import ServiciosRed.Rrd
import ServiciosRed.Window
import ServiciosRed.Aberration
import ServiciosRed.Actualiza
import ServiciosRed.Baselines
import ServiciosRed.Fails
import ServiciosRed.Consumers
import ServiciosRed.Events
import ServiciosRed.Directories
import ServiciosRed.Collation
import ServiciosRed.Execution
import ServiciosRed.Paths
import ServiciosRed.Provisioning
import ServiciosRed.Reachability
import ServiciosRed.Insertions
import ServiciosRed.Addresses
import ServiciosRed.Routes
import ServiciosRed.Lookups
import ServiciosRed.Fidelity
import ServiciosRed.Notifications
import ServiciosRed.Predictions
import ServiciosRed.EventLog
import ServiciosRed.Configuration
import ServiciosRed.Termination
import ServiciosRed.LeastSquares
import ServiciosRed.Trend
import ServiciosRed.Ping
import ServiciosRed.Walk
import ServiciosRed.Groups
import ServiciosRed.Latency
import ServiciosRed.Commands
import ServiciosRed.Outcomes
import ServiciosRed.Reports
import ServiciosRed.Redirections
