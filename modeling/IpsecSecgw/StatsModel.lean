import IpsecSecgw.FlowModel

/-! # Statistics of received packets

    `appStatsData` of `ngtl/stats/stats.c`: counters for up to four ports, and which
    of them `dpi` raises for a packet (`FlowModel` has its part with the flows).  An
    index behind the array ends the computation with `index`. -/

namespace Stats

open ByteStore MbufModel SecgwModel Flow

/-! ## Counters -/

/-- The fields of `struct appStatsStruct`. -/
inductive Counter
  | eth
  | ethTypeARP
  | ethTypeVLAN
  | ethTypeIPV4
  | ethTypeIPV6
  | ethTypeLLDP
  | ethTypeUNKNOWN
  | ipTypeTCP
  | ipTypeUDP
  | ipTypeICMP
  | ipTypeESP
  | ipTypeIGMP
  | ipTypeOSPF
  | ipTypeGRE
  | ipTypeUNKNOWN
  | tcpTypeFTP
  | tcpTypeSSH
  | tcpTypeTELNET
  | tcpTypeSMTP
  | tcpTypeHTTP
  | tcpTypeHTTPS
  | tcpTypeIMAPS
  | tcpTypeMSSQL
  | tcpTypeORACLESQL
  | tcpTypePPTP
  | tcpTypeMYSQL
  | tcpTypeRDP
  | tcpTypeVNC
  | tcpTypeNETBIOS
  | tcpTypeBGP
  | tcpTypeSIP
  | tcpTypeLDAP
  | tcpTypeSOCKS
  | tcpTypeSQUID
  | tcpTypePOSTGRESQL
  | tcpTypeREDIS
  | tcpTypeELASTICSEARCH
  | tcpTypeMONGODB
  | tcpTypeUNKNOWN
  | udpTypeIKEv2
  | udpTypeDNS
  | udpTypeDHCP
  | udpTypeNTP
  | udpTypeSNMP
  | udpTypeSYSLOG
  | udpTypeRIP
  | udpTypeRADIUS
  | udpTypeX11
  | udpTypeOPENVPN
  | udpTypeUNKNOWN
  deriving DecidableEq, Repr

/-- `appStatsData[4]`. -/
abbrev nbAppStats : Nat := 4

abbrev AppStats := Vector (Counter → UInt64) nbAppStats

/-- An index that is not below the size of the array. -/
inductive StatFault
  | index (portid : UInt16)
  deriving DecidableEq

/-- `appStatsData[portid].c++`. -/
def count (portid : UInt16) (stats : AppStats) (c : Counter) : Except StatFault AppStats :=
  if h : portid.toNat < nbAppStats then
    .ok (stats.set portid.toNat
      (Function.update (stats.get ⟨portid.toNat, h⟩) c (stats.get ⟨portid.toNat, h⟩ c + 1)) h)
  else .error (.index portid)

/-! ## Services -/

/-- `tcpServices`. -/
def tcpServices (port : Nat) : Counter :=
  if port ∈ [20, 21] then .tcpTypeFTP
  else if port = 22 then .tcpTypeSSH
  else if port = 23 then .tcpTypeTELNET
  else if port = 25 then .tcpTypeSMTP
  else if port = 80 then .tcpTypeHTTP
  else if port = 443 then .tcpTypeHTTPS
  else if port = 143 then .tcpTypeIMAPS
  else if port = 1433 then .tcpTypeMSSQL
  else if port = 1521 then .tcpTypeORACLESQL
  else if port = 1723 then .tcpTypePPTP
  else if port = 3306 then .tcpTypeMYSQL
  else if port = 3389 then .tcpTypeRDP
  else if port = 5900 then .tcpTypeVNC
  else if port ∈ [137, 138, 139] then .tcpTypeNETBIOS
  else if port ∈ [161, 179] then .tcpTypeBGP
  else if port ∈ [5060, 5061] then .tcpTypeSIP
  else if port = 636 then .tcpTypeLDAP
  else if port = 1080 then .tcpTypeSOCKS
  else if port = 3128 then .tcpTypeSQUID
  else if port = 5432 then .tcpTypePOSTGRESQL
  else if port = 6379 then .tcpTypeREDIS
  else if port = 9200 then .tcpTypeELASTICSEARCH
  else if port ∈ [27017, 27018, 27019] then .tcpTypeMONGODB
  else .tcpTypeUNKNOWN

/-- `udpServices`. -/
def udpServices (port : Nat) : Counter :=
  if port ∈ [500, 4500] then .udpTypeIKEv2
  else if port = 53 then .udpTypeDNS
  else if port ∈ [67, 68] then .udpTypeDHCP
  else if port = 123 then .udpTypeNTP
  else if port ∈ [161, 162] then .udpTypeSNMP
  else if port = 514 then .udpTypeSYSLOG
  else if port = 520 then .udpTypeRIP
  else if port ∈ [1645, 1646] then .udpTypeRADIUS
  else if port ∈ [6000, 6063] then .udpTypeX11
  else if port = 1194 then .udpTypeOPENVPN
  else .udpTypeUNKNOWN

/-! ## A packet -/

def etherTypeArp : Nat := 0x0806
def etherTypeVlan : Nat := 0x8100
def etherTypeLldp : Nat := 0x88CC

/-- The counters of an IPv4 packet. -/
def ip4Counters (m : Mbuf) : List Counter :=
  let proto := m.buf (m.dataOff + 14 + 9)
  let l4 := m.dataOff + dpiL2Len m
  let srcPort := ofBe (load m.buf l4 2)
  let dstPort := ofBe (load m.buf (l4 + 2) 2)
  if proto = ipprotoTcp then [.ipTypeTCP, tcpServices srcPort, tcpServices dstPort]
  else if proto = ipprotoUdp then [.ipTypeUDP, udpServices srcPort, udpServices dstPort]
  else if proto = ipprotoIcmp then [.ipTypeICMP]
  else if proto = ipprotoEsp then [.ipTypeESP]
  else if proto = ipprotoIgmp then [.ipTypeIGMP]
  else if proto = ipprotoGre then [.ipTypeGRE]
  else if proto = ipprotoOspf then [.ipTypeOSPF]
  else [.ipTypeUNKNOWN]

/-- The counters `dpi` raises, one after the other. -/
def dpiCounters (m : Mbuf) : List Counter :=
  let ethType := etherType m
  .eth ::
    (if ethType = etherTypeArp then [.ethTypeARP]
    else if ethType = etherTypeVlan then [.ethTypeVLAN]
    else if ethType = etherTypeIpv6 then [.ethTypeIPV6]
    else if ethType = etherTypeLldp then [.ethTypeLLDP]
    else if ethType = etherTypeIpv4 then .ethTypeIPV4 :: ip4Counters m
    else [.ethTypeUNKNOWN])

/-- `dpi` on `appStatsData`. -/
def dpiStats (m : Mbuf) (portid : UInt16) (stats : AppStats) : Except StatFault AppStats :=
  (dpiCounters m).foldlM (count portid) stats

end Stats
