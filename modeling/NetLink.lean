import NetLink.Channel.AckCodec
import NetLink.Channel.Fairness
import NetLink.Channel.FullTurns
import NetLink.Channel.LinkPair.Acks
import NetLink.Channel.LinkPair.Losses
import NetLink.Channel.LinkPair.SharedBudget
import NetLink.Channel.LinkPair.Trail
import NetLink.Channel.Mailbox
import NetLink.Channel.MailboxQueues
import NetLink.Channel.MediaAbandoned
import NetLink.Channel.PacketFormat
import NetLink.Channel.ReliableLink.Congestion
import NetLink.Channel.ReliableLink.Deadlines
import NetLink.Channel.ReliableLink.Ends
import NetLink.Channel.ReliableLink.FullScan
import NetLink.Channel.ReliableLink.Lanes
import NetLink.Channel.ReliableLink.LaterAcks
import NetLink.Channel.ReliableLink.Refused
import NetLink.Channel.ReliableLink.Silence
import NetLink.Channel.ReliableLink.Unanswered
import NetLink.Channel.ReliableLink.WornOut
import NetLink.Channel.RunEnds
import NetLink.Channel.SendScheduler
import NetLink.Channel.SequenceMap
import NetLink.Channel.TokenBucket
import NetLink.Channel.WireBuffer
import NetLink.Discovery.Beacon
import NetLink.Discovery.DiscoveryLogic
import NetLink.Discovery.MessageCodecs
import NetLink.Engine.Backlog
import NetLink.Engine.Board
import NetLink.Engine.Consent
import NetLink.Engine.Crowd
import NetLink.Engine.Discovered
import NetLink.Engine.Events
import NetLink.Engine.HandedOver
import NetLink.Engine.Hellos
import NetLink.Engine.Links
import NetLink.Engine.Loops
import NetLink.Engine.MediaInbox
import NetLink.Engine.MediaReports
import NetLink.Engine.Moves
import NetLink.Engine.Names
import NetLink.Engine.Observed
import NetLink.Engine.Outcomes
import NetLink.Engine.PeerMoves
import NetLink.Engine.Receiving
import NetLink.Engine.Runs.Commands
import NetLink.Engine.Runs.Datagrams
import NetLink.Engine.Runs.Interface
import NetLink.Engine.Runs.Sending
import NetLink.Engine.Runs.Sessions
import NetLink.Engine.Runs.Step
import NetLink.Engine.Sessions
import NetLink.Engine.State
import NetLink.Engine.Step
import NetLink.Engine.Tables
import NetLink.Engine.Tidy
import NetLink.Engine.View
import NetLink.Engine.WakeUp
import NetLink.EnginePair.StaleHello
import NetLink.Lib.Bucket
import NetLink.Lib.Maps
import NetLink.Net.Address
import NetLink.Net.Parse
import NetLink.Session.ControlMessage
import NetLink.Types
