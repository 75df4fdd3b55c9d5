import Femail.Foundation.CString
import Femail.Foundation.Delimited
import Femail.Foundation.Discipline
import Femail.Foundation.Framing
import Femail.Foundation.Head
import Femail.Foundation.Heap
import Femail.Foundation.History
import Femail.Foundation.Lifecycle
import Femail.Foundation.Frames
import Femail.Foundation.Lines
import Femail.Foundation.Passing
import Femail.Foundation.Projection
import Femail.Foundation.Ring
import Femail.Foundation.Rotation
import Femail.Server.Types
import Femail.Server.Comm
import Femail.Server.Smtp
import Femail.Server.Http
import Femail.Server.Master
import Femail.Server.Main
import Femail.Server.Host
import Femail.Server.Program
import Femail.Verified.Queue
import Femail.Verified.Handler
import Femail.Verified.Replies
import Femail.Verified.Leftover
import Femail.Verified.Session
import Femail.Verified.Dialogue
import Femail.Verified.Verbs
import Femail.Verified.Commands
import Femail.Verified.CommandReads
import Femail.Verified.ClientDomain
import Femail.Verified.ReplyGrammar
import Femail.Verified.ReplyStream
import Femail.Verified.Segmentation
import Femail.Verified.Sequence
import Femail.Verified.Transaction
import Femail.Verified.Buffer
import Femail.Verified.Message
import Femail.Verified.DataPhase
import Femail.Verified.EndMarker
import Femail.Verified.Conversation
import Femail.Verified.Talk
import Femail.Verified.Pipelining
import Femail.Verified.HttpAnswer
import Femail.Verified.WebResponse
import Femail.Verified.Answers
import Femail.Verified.Upgrade
import Femail.Verified.Calls
import Femail.Verified.TlsRead
import Femail.Verified.Twin
import Femail.Verified.Availability
import Femail.Verified.Conservation
import Femail.Verified.Tickets
import Femail.Verified.Ownership
import Femail.Verified.RoundRobin
import Femail.Verified.Departure
import Femail.Verified.WellFormed
import Femail.Verified.TlsDiscipline
import Femail.Verified.Listeners
import Femail.Verified.Program
import Femail.Verified.Isolation
import Femail.Verified.ServerTalk
import Femail.Verified.Memory
import Femail.Verified.Ages
import Femail.Verified.Blocking
import Femail.Verified.Hangup
