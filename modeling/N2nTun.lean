import N2nTun.Lib.Bytes
import N2nTun.Lib.Frames
import N2nTun.Lib.Machine
import N2nTun.Lib.Parts
import N2nTun.Lib.Table
import N2nTun.Lib.Token
import N2nTun.Define
import N2nTun.Wire
import N2nTun.WireBounds
import N2nTun.WireEncode
import N2nTun.WireRoundTrip
import N2nTun.WireReader
import N2nTun.WireTruncation
import N2nTun.Reassembly
import N2nTun.SnTcp
import N2nTun.EdgeTransport
import N2nTun.EdgeTcp
import N2nTun.Kcp
import N2nTun.Crypto
import N2nTun.HeaderEncryption
import N2nTun.HeaderRoundTrip
import N2nTun.TimeStamp
import N2nTun.SnState
import N2nTun.SnSend
import N2nTun.SendFraming
import N2nTun.UpdateEdge
import N2nTun.AutoIp
import N2nTun.SnPeriodic
import N2nTun.SnReceive
import N2nTun.SnHandlers
import N2nTun.KeyTable
import N2nTun.SnActs
import N2nTun.DispatchActs
import N2nTun.ActEffects
import N2nTun.EdgeTable
import N2nTun.SnMachine
import N2nTun.MacKeys
import N2nTun.EdgeSockets
import N2nTun.Replay
import N2nTun.CommunityFile
import N2nTun.HeaderLock
import N2nTun.KeyAgreement
import N2nTun.Relay
import N2nTun.Unregister
import N2nTun.Notes
import N2nTun.Uninitialised.Stack
import N2nTun.Uninitialised.Outcome
import N2nTun.Uninitialised.Query
import N2nTun.Uninitialised.Registration
import N2nTun.Uninitialised.Ack
import N2nTun.Uninitialised
import N2nTun.EdgeAuth
import N2nTun.EdgeState
import N2nTun.EdgeReceive
import N2nTun.EdgeRegister
import N2nTun.EdgeRun
import N2nTun.TransportState
import N2nTun.StampOrder
import N2nTun.SockIdentity
import N2nTun.PeerTables
import N2nTun.KcpSessions
import N2nTun.EdgeRefresh
import N2nTun.Associations
import N2nTun.Purge
import N2nTun.AddressSearch
import N2nTun.SubnetSearch
import N2nTun.SupernodeList
import N2nTun.HeaderBounds
import N2nTun.RegisterUser
import N2nTun.Management
import N2nTun.EdgeManagement
import N2nTun.SnManagement
import N2nTun.ManagementAccess
import N2nTun.StampVerify
import N2nTun.TrialOrder
import N2nTun.Lib.Prefix
import N2nTun.Lib.Selection
import N2nTun.FilterRules
import N2nTun.FilterPacket
import N2nTun.FilterCache
import N2nTun.FilterText
import N2nTun.FilterGrammar
import N2nTun.FilterParse
import N2nTun.FilterRoundTrip
import N2nTun.Regex
import N2nTun.RuleIndependence
import N2nTun.CommunityText
import N2nTun.FederationName
import N2nTun.CommunityAdmission
import N2nTun.SnStart
import N2nTun.FederationStart
import N2nTun.Lib.Mixing
import N2nTun.RandomNumbers
import N2nTun.KeyText
import N2nTun.KcpReads
import N2nTun.KcpReceive
import N2nTun.SnKcpReceive
import N2nTun.EdgeKcpReceive
import N2nTun.Lib.Cbc
import N2nTun.Transform
import N2nTun.TransformRoundTrip
import N2nTun.TransformBounds
import N2nTun.SnSelection
import N2nTun.SelectionLoad
import N2nTun.SelectionRtt
import N2nTun.RegisterTiming
import N2nTun.SquareRoot
import N2nTun.Pings
import N2nTun.AddressText
import N2nTun.WirePrimitives
import N2nTun.Lib.FifoCache
import N2nTun.NeighborCache
import N2nTun.Lib.OnesComplement
import N2nTun.ControlMessages
import N2nTun.Lib.Mailbox
import N2nTun.WintunDevice
import N2nTun.Lib.LinkedList
import N2nTun.Lib.Printf
import N2nTun.Lib.Scan
import N2nTun.ManagementParsing
import N2nTun.ManagementTexts
import N2nTun.ManagementReplies
import N2nTun.TapTxQueue
import N2nTun.Lib.Montgomery
import N2nTun.Lib.Radix
import N2nTun.Lib.Lucas
import N2nTun.Curve25519
import N2nTun.Curve25519Words
import N2nTun.Curve25519Prime
import N2nTun.Curve25519Ladder
import N2nTun.SharedSecret
import N2nTun.UserAuth
import N2nTun.Payload
import N2nTun.TapFrames
import N2nTun.SealedHeader
import N2nTun.DataPlane
import N2nTun.Lib.KeyStream
import N2nTun.Lib.Word32
import N2nTun.ChaCha20
import N2nTun.Lib.Rounds
import N2nTun.Lib.InOut
import N2nTun.CipherModes
import N2nTun.Twofish
import N2nTun.Lib.Rijndael
import N2nTun.AesTables
import N2nTun.Aes
import N2nTun.AesNi
import N2nTun.Speck
import N2nTun.EdgeCiphers
