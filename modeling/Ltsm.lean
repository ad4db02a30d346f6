import Ltsm.Library.Run
import Ltsm.Library.SortedList
import Ltsm.Library.PathTree
import Ltsm.Library.ByteReader
import Ltsm.Library.FirstMatch
import Ltsm.Library.SharedPool
import Ltsm.AllowLogins
import Ltsm.ServerStream
import Ltsm.TlsHandshake
import Ltsm.VenCrypt
import Ltsm.ServerSecurity
import Ltsm.ChannelTypes
import Ltsm.ChannelClient
import Ltsm.ChannelPlanned
import Ltsm.ChannelPhase
import Ltsm.ClientConsent
import Ltsm.XvfbSessions
import Ltsm.DBusAdaptor
import Ltsm.SessionMoves
import Ltsm.SessionAttachment
import Ltsm.LoginMoves
import Ltsm.LoginFailures
import Ltsm.ConnectorLogin
import Ltsm.CredentialBinding
import Ltsm.LoginWindow
import Ltsm.LoginClaims
import Ltsm.AuthLock
import Ltsm.FuseShares
import Ltsm.PixelFormats
import Ltsm.Library.Spans
import Ltsm.Library.Painting
import Ltsm.Regions
import Ltsm.PixelStreams
import Ltsm.CompressedPixels
import Ltsm.UpdateMessages
import Ltsm.UpdateCount
import Ltsm.Library.Tally
import Ltsm.Library.Custody
import Ltsm.Library.Blocks
import Ltsm.FrameBuffers
import Ltsm.SubRects
import Ltsm.Rre
import Ltsm.HexTile
import Ltsm.Library.Runs
import Ltsm.BitStreams
import Ltsm.TrleTiles
import Ltsm.Trle
import Ltsm.PackedRows
import Ltsm.TrleUpdates
import Ltsm.QoiCodec
import Ltsm.QoiAgreement
import Ltsm.QoiRoundTrip
import Ltsm.QoiLength
import Ltsm.Lz4Updates
import Ltsm.DamagedRegions
import Ltsm.DamageLoop
import Ltsm.ZLibBlocks
import Ltsm.CutText
import Ltsm.ExtClipboard
import Ltsm.ClipboardProvide
import Ltsm.ClipboardMatching
import Ltsm.ChannelEnds
import Ltsm.ChannelLedger
import Ltsm.ChannelMoves
import Ltsm.ChannelAgreement
import Ltsm.ChannelRaces
import Ltsm.ChannelIds
import Ltsm.ChannelStreams
import Ltsm.ChannelDescriptors
import Ltsm.RfbFields
import Ltsm.ClientMessages
import Ltsm.ServerMessages
import Ltsm.MessageFraming
import Ltsm.EncoderSelection
import Ltsm.DeflateStreams
import Ltsm.Library.BlockModes
import Ltsm.VncChallenge
import Ltsm.VncPasswordFile
import Ltsm.GssTokens
import Ltsm.TlsStream
import Ltsm.FuseClient
import Ltsm.FuseReplies
import Ltsm.Library.PathWalk
import Ltsm.FuseConfinement
import Ltsm.Library.CommandFeed
import Ltsm.StreamBufs
import Ltsm.FuseCommands
import Ltsm.AudioCommands
import Ltsm.PcscCommands
import Ltsm.Pkcs11Commands
import Ltsm.JsonTokens
import Ltsm.JsonContent
import Ltsm.JsonStreams
import Ltsm.JsonTexts
import Ltsm.JsonParses
import Ltsm.JsonScalars
import Ltsm.JsonLayouts
import Ltsm.JsonRoundTrip
import Ltsm.ConnectorFeeds
import Ltsm.PcscReplies
import Ltsm.Pkcs11Replies
import Ltsm.SystemMessages
import Ltsm.ChannelFrames
import Ltsm.ChannelPayloads
import Ltsm.Library.EmplaceMap
import Ltsm.Library.PathNames
import Ltsm.Library.WindowReads
import Ltsm.ShareTree
import Ltsm.FuseSession
import Ltsm.FuseHandshake
import Ltsm.FuseNamespace
import Ltsm.KernelDirents
import Ltsm.FuseCompleteness
import Ltsm.PcscHandles
import Ltsm.PcscRemote
import Ltsm.Pkcs11Session
import Ltsm.PcscTransactions
import Ltsm.PcscReaders
import Ltsm.PcscReconnect
import Ltsm.ClientSenders
import Ltsm.ChannelCloses
import Ltsm.SessionRegistry
import Ltsm.SessionRedirects
import Ltsm.TransferRequests
import Ltsm.TransferMoves
import Ltsm.ConnectorSignals
import Ltsm.CursorCaches
import Ltsm.ContinuousUpdates
import Ltsm.ResizeNegotiation
import Ltsm.PcscLocalReplies
import Ltsm.SelectionCopies
import Ltsm.SelectionPastes
import Ltsm.ClipboardDirections
import Ltsm.Library.WrappedCounter
import Ltsm.DividedRegions
import Ltsm.RegionScans
import Ltsm.SubRectSearch
import Ltsm.PointerButtons
import Ltsm.AudioOrder
import Ltsm.FormatConversions
import Ltsm.AcceptedFormats
import Ltsm.SubRectContainment
import Ltsm.DecoderContainment
import Ltsm.BlitRegion
import Ltsm.RegionAlgebra
import Ltsm.DesktopLayout
import Ltsm.Base64
import Ltsm.StreamFifo
import Ltsm.PartialBatches
import Ltsm.SocketAddresses
import Ltsm.ChannelListeners
import Ltsm.JsonJoin
import Ltsm.JsonToString
import Ltsm.AsyncMutex
import Ltsm.Library.Loops
import Ltsm.ScreenRows
import Ltsm.RdpPointer
import Ltsm.ClientPointer
import Ltsm.LivenessMoves
import Ltsm.ConnectorLiveness
import Ltsm.Library.Substrings
import Ltsm.TextReplace
import Ltsm.Library.Batches
import Ltsm.PlanarUpdate
import Ltsm.KeyEvents
import Ltsm.Library.Dialogue
import Ltsm.HandshakeParties
import Ltsm.HandshakeStreams
import Ltsm.HandshakeAgreement
import Ltsm.Library.Chains
import Ltsm.HashTable
import Ltsm.HashTableRuns
import Ltsm.UpdateCodecs
import Ltsm.ScreenMirror
import Ltsm.SessionTasks
import Ltsm.SessionLimits
import Ltsm.Library.Conduit
import Ltsm.ProxyRelay
