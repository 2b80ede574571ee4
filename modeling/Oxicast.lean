import Oxicast.Framing.Codec
import Oxicast.Status.Echo
import Oxicast.Transition
import Oxicast.Tracker.Correlation
import Oxicast.Router.Delivery
import Oxicast.Router.Consumers
import Oxicast.Router.History
import Oxicast.Heartbeat.Detection
import Oxicast.Lifecycle.Agreement
import Oxicast.Lifecycle.Generations
import Oxicast.Lifecycle.Losses
import Oxicast.Lifecycle.Ownership
import Oxicast.Lifecycle.Cancellation
import Oxicast.Lifecycle.Reopen
import Oxicast.Session.ConnectFirst
import Oxicast.Session.Events
import Oxicast.Session.Commands
import Oxicast.Session.Loads
import Oxicast.Session.ReadBack
import Oxicast.Session.Fresh
import Oxicast.Session.Flush
import Oxicast.Serve.Range
import Oxicast.Discovery.Report
import Oxicast.Lifecycle.Backoff
import Oxicast.Session.Integers
import Oxicast.Session.StopApp
import Oxicast.Tracker.Register
import Oxicast.Heartbeat.Ping
import Oxicast.Session.Stream
import Oxicast.Serve.Cast
import Oxicast.Serve.Download
import Oxicast.Lifecycle.Returns
import Oxicast.Lifecycle.Retries
import Oxicast.Session.Once
import Oxicast.Session.Returns
import Oxicast.Session.Answers
import Oxicast.Session.Written
import Oxicast.Status.Volume
import Oxicast.Heartbeat.Replies
import Oxicast.Session.Wishes
import Oxicast.Heartbeat.Silence
