import Leyu.Framework.Runs
import Leyu.Framework.CString
import Leyu.Framework.Crlf
import Leyu.Framework.Search
import Leyu.Framework.Scan
import Leyu.Framework.SharedCell
import Leyu.Framework.CountedStore
import Leyu.Framework.AssocList
import Leyu.Framework.History
import Leyu.Platform
import Leyu.Cellular.Module
import Leyu.Cellular.PortLoss
import Leyu.Cellular.StaleReset
import Leyu.Cellular.OnlineFlag
import Leyu.Call.Rules
import Leyu.Call.Phone
import Leyu.Call.Manager
import Leyu.Call.DeadEnd
import Leyu.Call.Blocked
import Leyu.Call.ButtonHandler
import Leyu.Call.Records
import Leyu.Call.FailedCommand
import Leyu.Modem.Unsolicited
import Leyu.Modem.Lines
import Leyu.Modem.Parser
import Leyu.Modem.Batches
import Leyu.Modem.CustomCommand
import Leyu.Modem.ErrorReply
import Leyu.Modem.ReplyText
import Leyu.Modem.Link
import Leyu.Modem.SharedBuffer
import Leyu.Mqtt.Json
import Leyu.Mqtt.Messages
import Leyu.Mqtt.AtCommand
import Leyu.Mqtt.Device
import Leyu.Mqtt.Handlers
import Leyu.Mqtt.EventTask
import Leyu.Mqtt.Restart
import Leyu.Mqtt.RuleReload
import Leyu.Mqtt.RuleDownload
import Leyu.Mqtt.StatusReload
import Leyu.Mqtt.FlashLoad
import Leyu.Mqtt.KeyBind
import Leyu.Mqtt.Broker
import Leyu.Mqtt.Listener
import Leyu.Mqtt.Dispatch
import Leyu.Contacts.Book
import Leyu.Contacts.Invariant
import Leyu.Contacts.Saving
import Leyu.Contacts.Sync
import Leyu.Contacts.Texts
import Leyu.Contacts.AllOrNothing
import Leyu.Contacts.FiniteMap
import Leyu.Call.Dialler
import Leyu.Call.DialTimers
import Leyu.Call.DialledNumber
import Leyu.Call.PhoneCell
import Leyu.Call.Deferred
import Leyu.Call.Changes
import Leyu.Call.CallerNumber
import Leyu.Call.HangupTimer
import Leyu.Call.Ringtone
import Leyu.Sip.Service
import Leyu.Sip.CleanEnd
import Leyu.Wifi.Station
import Leyu.Wifi.RetryLimit
import Leyu.Network.Manager
import Leyu.Network.ActiveInterface
import Leyu.Network.Monitor
import Leyu.Network.Hysteresis
import Leyu.Keys.ButtonScan
import Leyu.Keys.Decoding
import Leyu.Uart.CommandQueue
import Leyu.Uart.OwnAnswer
import Leyu.Framework.Lifetime
import Leyu.Framework.Region
import Leyu.Modem.CallerId
import Leyu.Mqtt.DeviceImei
import Leyu.Mqtt.Document
import Leyu.Mqtt.DocumentHandlers
import Leyu.Mqtt.DeletedDocument
import Leyu.Mqtt.UserProperties
import Leyu.Mqtt.ClientState
import Leyu.Mqtt.ClientInit
import Leyu.Uart.SendAndWait
import Leyu.Uart.Completion
import Leyu.Brtc.RtcMode
import Leyu.Led.Xgb1815
import Leyu.Led.DecodedColours
import Leyu.Framework.Cyclic
import Leyu.Led.Control
import Leyu.Led.Animations
import Leyu.Framework.Cells
import Leyu.Framework.Grouping
import Leyu.Framework.Outputs
import Leyu.Framework.LittleEndian
import Leyu.Framework.Stream
import Leyu.Framework.Pieces
import Leyu.Blufi.Frame
import Leyu.Blufi.Receive
import Leyu.Blufi.Reassembly
import Leyu.Blufi.Delivery
import Leyu.Blufi.Faults
import Leyu.Blufi.Protocol
import Leyu.Blufi.Provisioning
import Leyu.Blufi.Ledger
import Leyu.Blufi.LongWrite
import Leyu.Blufi.Report
import Leyu.Rndis.Packet
import Leyu.Rndis.Receive
import Leyu.Rndis.Delivery
import Leyu.Rndis.LastLength
import Leyu.Rndis.Transmit
import Leyu.Framework.Routine
import Leyu.Rndis.Control
import Leyu.Rndis.Link
import Leyu.Rndis.TaskRules
import Leyu.Rndis.Responses
import Leyu.Rndis.LinkState
import Leyu.Rndis.StrictDevice
import Leyu.Rndis.Handshake
import Leyu.Rndis.StatusPoll
import Leyu.Mqtt.Subscription
import Leyu.Blufi.Security
import Leyu.Blufi.Session
import Leyu.Blufi.Application
