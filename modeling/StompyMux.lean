import StompyMux.Autopilot.Planning
import StompyMux.Autopilot.Polling
import StompyMux.Autopilot.Retries
import StompyMux.Btech.Stagger
import StompyMux.Commands.Pieces
import StompyMux.Commands.Service
import StompyMux.Communication.Runs
import StompyMux.Construction.Agreement
import StompyMux.Construction.Allocation
import StompyMux.Impact.Budget
import StompyMux.Impact.Hardened
import StompyMux.Impact.Immunity
import StompyMux.Lua.CronExact
import StompyMux.Lua.ScheduleRuns
import StompyMux.Map.Paths
import StompyMux.Mapgen.Network
import StompyMux.Mapgen.Outline
import StompyMux.Mappy.Renderer
import StompyMux.Mines.Coverage
import StompyMux.Network.Reconcile
import StompyMux.Persistence.CommunicationRuns
import StompyMux.Persistence.MacroSave
import StompyMux.Persistence.Restarts
import StompyMux.Persistence.TerrainRuns
import StompyMux.Sight.Mutual
import StompyMux.Sight.TraceCache
import StompyMux.Slots.Runs
import StompyMux.Stacking.Restored
import StompyMux.State.Value
import StompyMux.Stock.Exact
import StompyMux.StyledText.Escape
import StompyMux.StyledText.Wrapping
import StompyMux.Telnet.Defaults
import StompyMux.Telnet.Frames
import StompyMux.Telnet.Updates
import StompyMux.Telnet.Wire
import StompyMux.Transaction.Runs
import StompyMux.Woodland.Extinction
import StompyMux.Woodland.Hits
import StompyMux.World.Containment
import StompyMux.World.Rebuilding
