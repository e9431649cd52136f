import Libnl.Core.Bytes
import Libnl.Core.Walk
import Libnl.Core.Descent
import Libnl.Core.KeyedList
import Libnl.Core.Buckets
import Libnl.Core.Supply
import Libnl.Core.EarlyExit
import Libnl.Core.FlatClone
import Libnl.Core.Arrays
import Libnl.Core.Pools
import Libnl.Core.Rings
import Libnl.Route.ObjectClone
import Libnl.Core.Bitmap
import Libnl.Core.Runs
import Libnl.Core.BitString
import Libnl.Core.Numeral
import Libnl.Core.Scanf
import Libnl.Core.Prefix
import Libnl.Core.Track
import Libnl.Core.Mask
import Libnl.Core.Compare
import Libnl.Core.CString
import Libnl.Core.AppendText
import Libnl.Core.Inet
import Libnl.Core.Layout
import Libnl.Core.Window
import Libnl.Core.Words
import Libnl.Message.Msg
import Libnl.Message.Attr
import Libnl.Message.AttrWalk
import Libnl.Message.AttrTree
import Libnl.Message.AttrStream
import Libnl.Message.Writer
import Libnl.Message.Fields
import Libnl.Message.Validate
import Libnl.Message.Accesses
import Libnl.Message.Local
import Libnl.Message.Reserve
import Libnl.Message.Builder
import Libnl.Message.Frame
import Libnl.Message.NestEnd
import Libnl.Message.Plan
import Libnl.Message.Twins
import Libnl.Message.Overlong
import Libnl.Cache.Object
import Libnl.Cache.Diff
import Libnl.Cache.Hash
import Libnl.Cache.Attributes
import Libnl.Cache.Cache
import Libnl.Cache.Invariant
import Libnl.Cache.Functions
import Libnl.Cache.Runs
import Libnl.Cache.Move
import Libnl.Cache.Lookup
import Libnl.Cache.Removal
import Libnl.Cache.Contents
import Libnl.Cache.Tracking
import Libnl.Cache.Frame
import Libnl.Cache.Notify
import Libnl.Cache.Dump
import Libnl.Cache.Resync
import Libnl.Cache.Refill
import Libnl.Cache.Mngt
import Libnl.Route.Addr
import Libnl.Route.AddrOrder
import Libnl.Route.AddrPrefix
import Libnl.Route.AddrPrint
import Libnl.Route.AddrParse
import Libnl.Route.DnetText
import Libnl.Route.Mpls
import Libnl.Route.Classid
import Libnl.Route.Pktloc
import Libnl.Route.ClassidGenerate
import Libnl.Route.Act
import Libnl.Route.ActRoundTrip
import Libnl.Route.ActDump
import Libnl.Route.U32
import Libnl.Route.U32Sized
import Libnl.Route.U32Keys
import Libnl.Route.U32Codec
import Libnl.Route.ActKinds
import Libnl.Route.Tc
import Libnl.Route.Netem
import Libnl.Route.NetemRequest
import Libnl.Route.IfAddr
import Libnl.Route.IfAddrCodec
import Libnl.Route.IfAddrPrefixlen
import Libnl.Route.IfAddrIdentity
import Libnl.Route.LinkRefs
import Libnl.Route.Rule
import Libnl.Route.RuleCodec
import Libnl.Route.RuleTrack
import Libnl.Route.Neigh
import Libnl.Route.ParserReads
import Libnl.Route.Link
import Libnl.Route.LinkCompare
import Libnl.Route.VfGuid
import Libnl.Route.LinkInfo
import Libnl.Route.LinkInfoCodec
import Libnl.Route.Vlan
import Libnl.Route.Sriov
import Libnl.Route.SriovFill
import Libnl.Route.SriovClone
import Libnl.Route.VlanCodec
import Libnl.Idiag.Msg
import Libnl.Route.Mdb
import Libnl.Route.MdbCompare
import Libnl.Route.MdbTrack
import Libnl.Route.MdbParse
import Libnl.Route.Nexthop
import Libnl.Route.RouteObj
import Libnl.Route.Keys
import Libnl.Route.RouteCodec
import Libnl.Route.AddrValid
import Libnl.Route.Multipath
import Libnl.Route.RouteWire
import Libnl.Route.RouteRead
import Libnl.Route.RouteFields
import Libnl.Route.RouteRoundTrip
import Libnl.Route.RouteResync
import Libnl.Route.Ecmp
import Libnl.Route.RouteCompare
import Libnl.Cache.Callback
import Libnl.Socket.Recvmsgs
import Libnl.Socket.Sequence
import Libnl.Utils.Duration
import Libnl.Utils.TransTbl
import Libnl.Utils.Data
import Libnl.Socket.SendFail
import Libnl.Socket.DumpIntr
import Libnl.Socket.Ports
import Libnl.Socket.CacheMngr
import Libnl.Socket.CacheMngrAdd
import Libnl.Socket.Events
import Libnl.Socket.Recv
import Libnl.Route.BridgeVlan
import Libnl.Route.BridgeVlanBounds
import Libnl.Route.BridgeDump
import Libnl.Route.Ematch
import Libnl.Route.EmatchCodec
import Libnl.Route.EmatchClone
import Libnl.Route.EmatchLink
import Libnl.Route.EmatchKinds
import Libnl.Netfilter.Ct
import Libnl.Netfilter.CtTrack
import Libnl.Netfilter.CtCodec
import Libnl.Netfilter.CtRoundTrip
import Libnl.Netfilter.CtBuild
import Libnl.Xfrm.Types
import Libnl.Xfrm.Selector
import Libnl.Xfrm.Policy
import Libnl.Xfrm.PolicyCodec
import Libnl.Xfrm.PolicyCompare
import Libnl.Xfrm.PolicyCount
import Libnl.Xfrm.Sa
import Libnl.Xfrm.SaCodec
import Libnl.Xfrm.SaTrack
import Libnl.Xfrm.SaCompare
import Libnl.Xfrm.SameBytes
import Libnl.Xfrm.Events
import Libnl.Xfrm.Ae
import Libnl.Xfrm.AeCodec
import Libnl.Xfrm.AeRoundTrip
import Libnl.Xfrm.ParserBounds
import Libnl.Genl.Family
import Libnl.Genl.FamilyClone
