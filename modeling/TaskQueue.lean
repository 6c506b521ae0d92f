import TaskQueue.Broker.Session
import TaskQueue.Broker.Watch
import TaskQueue.Handler.Script
import TaskQueue.Main
import TaskQueue.Pool.Desk
import TaskQueue.Registry.Session
import TaskQueue.Registry.Traffic
import TaskQueue.Proofs.Consumer.Arrivals
import TaskQueue.Proofs.Broker.Watch
import TaskQueue.Proofs.Consumer.Breakdowns
import TaskQueue.Proofs.Consumer.Build
import TaskQueue.Proofs.Consumer.Fates
import TaskQueue.Proofs.Consumer.Serial
import TaskQueue.Proofs.Payload.Record
import TaskQueue.Proofs.Pool
import TaskQueue.Proofs.Consumer.Reopening
import TaskQueue.Proofs.Worker.Session
import TaskQueue.Proofs.Registry
import TaskQueue.Proofs.Ulid
import TaskQueue.Proofs.Config.Variables
import TaskQueue.Proofs.Config.Document
import TaskQueue.Proofs.Config.Durations
import TaskQueue.Proofs.Consumer.Snapshot
import TaskQueue.Proofs.Demo.Greetings
