import IpsecSecgw.Lib.HalvingSearch
import IpsecSecgw.Lib.ByteStore
import IpsecSecgw.Lib.BlockChain
import IpsecSecgw.SaModel
import IpsecSecgw.SpiSearchProofs
import IpsecSecgw.MbufModel
import IpsecSecgw.IpipProofs
import IpsecSecgw.EspModel
import IpsecSecgw.EspProofs
import IpsecSecgw.EspSequenceProofs
import IpsecSecgw.EspFrameProofs
import IpsecSecgw.EspTagProofs
import IpsecSecgw.EspDeviceProofs
import IpsecSecgw.EspRoundTripProofs
import IpsecSecgw.EspWellFormedProofs
import IpsecSecgw.EspIvProofs
import IpsecSecgw.Lib.Tiling
import IpsecSecgw.EspRegionProofs
import IpsecSecgw.EspLengthProofs
import IpsecSecgw.EspTrailerProofs
import IpsecSecgw.Lib.Slots
import IpsecSecgw.SadModel
import IpsecSecgw.SadProofs
import IpsecSecgw.SadCacheProofs
import IpsecSecgw.SaInitModel
import IpsecSecgw.SaInitProofs
import IpsecSecgw.CdevModel
import IpsecSecgw.CdevProofs
import IpsecSecgw.Lib.Outcome
import IpsecSecgw.IpsecModel
import IpsecSecgw.CryptoQueueProofs
import IpsecSecgw.PacketOrderProofs
import IpsecSecgw.IpsecProofs
import IpsecSecgw.CdevSessionProofs
import IpsecSecgw.IpsecProcessProofs
import IpsecSecgw.Lib.Collect
import IpsecSecgw.WorkerModel
import IpsecSecgw.WorkerProofs
import IpsecSecgw.Lib.Sweep
import IpsecSecgw.SecgwModel
import IpsecSecgw.EspHeaderProofs
import IpsecSecgw.IkeFilterProofs
import IpsecSecgw.PollModel
import IpsecSecgw.PacketCountProofs
import IpsecSecgw.LcoreCountProofs
import IpsecSecgw.Lib.SlotHash
import IpsecSecgw.FlowModel
import IpsecSecgw.FlowProofs
import IpsecSecgw.FlowSweepProofs
import IpsecSecgw.FlowLogProofs
import IpsecSecgw.Lib.OnesSum
import IpsecSecgw.ChecksumProofs
import IpsecSecgw.EcnProofs
import IpsecSecgw.SadAddProofs
import IpsecSecgw.SadResultProofs
import IpsecSecgw.ClassifyProofs
import IpsecSecgw.IpHeaderProofs
import IpsecSecgw.TxFrameProofs
import IpsecSecgw.UdpEncapProofs
import IpsecSecgw.Lib.RoundRobin
import IpsecSecgw.QueueTurnProofs
import IpsecSecgw.SessionModel
import IpsecSecgw.SessionProofs
import IpsecSecgw.Lib.Compact
import IpsecSecgw.RouteModel
import IpsecSecgw.RouteProofs
import IpsecSecgw.HandlingProofs
import IpsecSecgw.GroupHandlingProofs
import IpsecSecgw.OutboundPolicyProofs
import IpsecSecgw.DrainHandlingProofs
import IpsecSecgw.InboundPolicyProofs
import IpsecSecgw.InboundRunProofs
import IpsecSecgw.SaXformProofs
import IpsecSecgw.DrvModeModel
import IpsecSecgw.DrvModeProofs
import IpsecSecgw.Lib.Fill
import IpsecSecgw.VectorModel
import IpsecSecgw.VectorProofs
import IpsecSecgw.ParserModel
import IpsecSecgw.Lib.NetPrefix
import IpsecSecgw.FlowRuleModel
import IpsecSecgw.FlowRuleProofs
import IpsecSecgw.TxBufferModel
import IpsecSecgw.TxBufferProofs
import IpsecSecgw.SaParseModel
import IpsecSecgw.SaParseProofs
import IpsecSecgw.SaTypeProofs
import IpsecSecgw.SaKeyProofs
import IpsecSecgw.RtModel
import IpsecSecgw.SaConfigProofs
import IpsecSecgw.TxPortProofs
import IpsecSecgw.RangeProofs
import IpsecSecgw.Lib.GrowArr
import IpsecSecgw.SpParseModel
import IpsecSecgw.SpParseProofs
import IpsecSecgw.AddrProofs
import IpsecSecgw.SpRuleProofs
import IpsecSecgw.KeyStringProofs
import IpsecSecgw.CfgFileModel
import IpsecSecgw.CfgFileProofs
import IpsecSecgw.EventHelperModel
import IpsecSecgw.EventHelperProofs
import IpsecSecgw.Lib.WriteLog
import IpsecSecgw.NumberProofs
import IpsecSecgw.CfgLinesModel
import IpsecSecgw.CfgLinesProofs
import IpsecSecgw.SaEffectProofs
import IpsecSecgw.SaOrderProofs
import IpsecSecgw.CfgItemModel
import IpsecSecgw.Lib.ScanLoop
import IpsecSecgw.MessageProofs
import IpsecSecgw.SaMessageProofs
import IpsecSecgw.SpMessageProofs
import IpsecSecgw.CfgMessageProofs
import IpsecSecgw.CfgParseModel
import IpsecSecgw.CfgCheckProofs
import IpsecSecgw.CfgParseProofs
import IpsecSecgw.Lib.Runs
import IpsecSecgw.SaGroupModel
import IpsecSecgw.SaGroupProofs
import IpsecSecgw.Lib.Fuel
import IpsecSecgw.Lib.SortedWalk
import IpsecSecgw.CoreSelectModel
import IpsecSecgw.CoreSelectProofs
import IpsecSecgw.CoreLinkProofs
import IpsecSecgw.NatsModel
import IpsecSecgw.NatsProofs
import IpsecSecgw.StatsModel
import IpsecSecgw.KniModel
import IpsecSecgw.KniProofs
import IpsecSecgw.ArpModel
import IpsecSecgw.ArpProofs
import IpsecSecgw.SpInitModel
import IpsecSecgw.SpInitProofs
import IpsecSecgw.SaIndexProofs
import IpsecSecgw.SpBindProofs
import IpsecSecgw.FailedPacketProofs
import IpsecSecgw.EventWorkerModel
import IpsecSecgw.EventWorkerProofs
import IpsecSecgw.PortInitModel
import IpsecSecgw.PortInitProofs
import IpsecSecgw.ConfigArgModel
import IpsecSecgw.ConfigArgProofs
import IpsecSecgw.Lib.Ranked
import IpsecSecgw.AclModel
import IpsecSecgw.SpdProofs
import IpsecSecgw.HandOverProofs
import IpsecSecgw.WireProofs
import IpsecSecgw.PolicyCallProofs
import IpsecSecgw.Lib.Rises
import IpsecSecgw.PolicyRunProofs
import IpsecSecgw.Lib.Calls
import IpsecSecgw.EventDevModel
import IpsecSecgw.EventDefaultProofs
import IpsecSecgw.EventDevProofs
import IpsecSecgw.EventReleaseProofs
import IpsecSecgw.ReassemblyModel
import IpsecSecgw.ReassemblyProofs
