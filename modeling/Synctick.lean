import Synctick.Foundation.Ensures
import Synctick.Foundation.Reads
import Synctick.Foundation.LittleEndian
import Synctick.Codec
import Synctick.Foundation.Bincode
import Synctick.Session
import Synctick.Protocol
import Synctick.Protocol.Decode
import Synctick.Protocol.RoundTrip
import Synctick.Replay.Writer
import Synctick.Simulation
import Synctick.Replay.Reader
import Synctick.Game
import Synctick.Protocol.Accepted
import Synctick.Replay.Batch
import Synctick.Replay.Mirror
import Synctick.Startup.Client
import Synctick.Startup.Peer
import Synctick.Startup.Verified
import Synctick.Foundation.CreditWindow
import Synctick.Startup.Stream
import Synctick.Client.Loop
import Synctick.Startup.Joining
import Synctick.Startup.Flow
import Synctick.Startup.Honest
import Synctick.Server.Wait
import Synctick.Server.Barrier
import Synctick.Server.TickLoop
import Synctick.Server.Gather
import Synctick.Server.Live
import Synctick.Server.WriteAhead
import Synctick.Server.Containment
import Synctick.Protocol.Format
import Synctick.Protocol.Lockstep
import Synctick.Replay.Format
import Synctick.Codec.Collections
import Synctick.Codec.Schema
import Synctick.Replay.Schedule
import Synctick.Codec.Passes
import Synctick.Codec.Bijection
import Synctick.Server.Run
import Synctick.Server.Arrivals
import Synctick.Server.Verification
import Synctick.Server.Reporting
import Synctick.Server.Origin
import Synctick.Replay.Offline
import Synctick.Server.Session
import Synctick.Lifecycle
import Synctick.Api
import Synctick.Determinism
import Synctick.Server.Reproduction
import Synctick.Server.Announcement
import Synctick.System
import Synctick.Agreement
import Synctick.Replication
import Synctick.Client.Agreement
import Synctick.Server.Outgoing
import Synctick.System.Serve
import Synctick.System.Perform
import Synctick.Startup.Bookkeeping
import Synctick.Codec.Budgets
import Synctick.Pacer
import Synctick.Client.Submission
import Synctick.Foundation.Fnv
import Synctick.Foundation.Framing
import Synctick.Hashing
import Synctick.Hashing.Unambiguous
import Synctick.Hashing.Detection
import Synctick.Worker
import Synctick.Attachment
import Synctick.Derive
import Synctick.Derive.Accepted
import Synctick.Derive.Reordering
import Synctick.Foundation.Search
import Synctick.Foundation.Ledger
import Synctick.Garden.Tile
import Synctick.Garden.Connectivity
import Synctick.Garden.Board
import Synctick.Garden.Validation
import Synctick.Garden.Play
import Synctick.Wallet.Model
import Synctick.Wallet.Books
import Synctick.Wallet.Game
import Synctick.Invariant
import Synctick.Wallet.Session
import Synctick.Bevy
import Synctick.Garden.Game
import Synctick.Garden.Session
import Synctick.Speech
import Synctick.Server.Delivery
import Synctick.System.Projection
import Synctick.Fidelity
import Synctick.Server.Retention
import Synctick.Client.Backlog
import Synctick.Convergence
