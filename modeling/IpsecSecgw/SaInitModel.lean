import IpsecSecgw.SadModel

/-! # Building the SA tables

    `sa.c` from `sa_create` to `sa_init`, with `ipsec_sad_create` and
    `create_inline_session`: how the SAs of a configuration file become the
    tables of a socket.  An entry is copied into its slot, entered into the SAD,
    completed with addresses and crypto transforms, and given a session where a
    port works on it inline; `sa_init` does this for both directions and leaves
    the program where a part of it fails that it looks at.

    Flow rules (`pattern`, `action`, `flow`) and what is printed are not kept;
    `create_ipsec_esp_flow` writes nothing else, and its failure is printed. -/

namespace SaInit

open SaModel MbufModel SadModel SpiSearch

/-! ## Data -/

/-- The transforms of a SA that `sa->xforms` and `next` point to. -/
inductive XfRef
  | a
  | b
  deriving DecidableEq

/-- `op` of a transform: away from clear text or back to it. -/
inductive XformOp
  | protect
  | unprotect
  deriving DecidableEq

/-- `xform.cipher`. -/
structure CipherXform where
  algo : CipherAlgo
  key : List UInt8
  op : XformOp
  ivLength : UInt16

/-- `xform.auth`. -/
structure AuthXform where
  algo : AuthAlgo
  key : List UInt8
  digestLength : UInt16
  op : XformOp
  ivLength : UInt16

/-- `xform.aead`. -/
structure AeadXform where
  algo : AeadAlgo
  key : List UInt8
  op : XformOp
  ivLength : UInt16
  aadLength : UInt16
  digestLength : UInt16

/-- `type` and the member of the union it names. -/
inductive Xform
  | unset
  | cipher (x : CipherXform)
  | auth (x : AuthXform)
  | aead (x : AeadXform)

/-- `struct rte_crypto_sym_xform`. -/
structure SymXform where
  xform : Xform := .unset
  next : Option XfRef := none

/-- `struct ipsec_xf`. -/
structure IpsecXf where
  a : SymXform := {}
  b : SymXform := {}

/-- A slot of `sa_ctx->sa`. -/
structure SaSlot where
  sa : IpsecSa := {}
  xforms : Option XfRef := none

/-- `struct sa_ctx`; a SA is known by its index. -/
structure SaTable (lib : SadLib) where
  nbSa : Nat
  sa : Nat → SaSlot := fun _ => {}
  xf : Nat → IpsecXf := fun _ => {}
  sad : IpsecSad lib := {}

/-- Why a program ends: `rte_exit`, or a null pointer is followed. -/
inductive Stop
  | exit
  | null
  deriving DecidableEq

/-- The security modes of a session. -/
inductive SessionMode
  | transport
  | tunnel
  deriving DecidableEq

/-- `struct rte_security_capability`, with `ipsec` when its protocol is IPsec. -/
structure SecCapability where
  action : ActionType
  ipsec : Option (SessionMode × Direction)
  olFlags : UInt32

/-- What `rte_eth_dev_info_get` tells about offloads. -/
structure EthDevInfo where
  rxSecurity : Bool
  txSecurity : Bool
  txTcpTso : Bool

/-- `rte_flow_validate` is asked about three last actions. -/
inductive FlowAction
  | rss
  | queue
  | done

/-- `struct rte_ipsec_sa_prm` where it depends on the SA, with the headers and
    addresses in the SA itself. -/
structure RteIpsecSaPrm where
  userdata : SaSlot
  mode : SessionMode
  /-- the tunnel is of this family -/
  tunnel : Option Bool
  proto : Int

/-- The libraries and devices `sa_init` asks, and the settings it reads.  An
    answer may depend on the SA asked for, by direction and index. -/
structure Platform where
  /-- `app_sa_prm.enable` -/
  enable : Bool
  /-- `app_sa_prm.enable_esn` -/
  enableEsn : Bool
  /-- memory for a table is found in `sa_create` -/
  saCreate : Bool → Bool
  /-- `rte_ipsec_sad_create` for a family: an error number when it fails -/
  sadCreate : Bool → Option Int
  ethDevInfoGet : UInt16 → Int × EthDevInfo
  ethDevGetSecCtx : UInt16 → Bool
  securitySessionCreate : Bool → Nat → SaSlot → Option SesId
  securityCapabilitiesGet : UInt16 → Option (List SecCapability)
  /-- `flow_info_tbl[port].rx_def_flow` -/
  rxDefFlow : UInt16 → Bool
  rssHashConfGet : UInt16 → Int
  flowValidate : Bool → Nat → FlowAction → Int
  flowCreate : Bool → Nat → Bool
  ipsecSaSize : Option RteIpsecSaPrm → Int
  satblZmalloc : Bool → Bool
  ipsecSaInit : Bool → Nat → RteIpsecSaPrm → Int
  ipsecSessionPrepare : Bool → Nat → RteIpsecSession → Int

variable (lib : SadLib) (plat : Platform) (t : Tables)

/-! ## One SA -/

/-- The session works on a port. -/
def isInline (ips : RteIpsecSession) : Bool :=
  ips.type == .inlineProtocol || ips.type == .inlineCrypto

/-- `check_eth_dev_caps`. -/
def checkEthDevCaps (portid : UInt16) (inbound : Bool) (tso : UInt16) : Int :=
  let r := plat.ethDevInfoGet portid
  if r.1 ≠ 0 then r.1
  else if inbound then
    if !r.2.rxSecurity then einval else 0
  else if !r.2.txSecurity then einval
  else if tso ≠ 0 ∧ !r.2.txTcpTso then einval
  else 0

/-- `IPPROTO_IPIP`, `IPPROTO_IPV6`. -/
def ipprotoIpip : Int := 4
def ipprotoIpv6 : Int := 41

/-- `get_spi_proto`. -/
def getSpiProto (spi : UInt32) (dir : Direction) : Int :=
  let rc4 := sp4SpiPresent t spi (dir == .ingress)
  let rc6 := sp6SpiPresent t spi (dir == .ingress)
  if 0 ≤ rc4 then
    if 0 ≤ rc6 then einval else ipprotoIpip
  else if rc6 < 0 then einval
  else ipprotoIpv6

/-- The rule of a family that `sp4_spi_present` or `sp6_spi_present` has found. -/
def ruleAt (rules : List AclRules) (rc : Int) : AclRules := rules.getD rc.toNat {}

/-- `IP4_FULL_MASK`, `IP6_FULL_MASK`. -/
def ip4FullMask : UInt32 := 32
def ip6FullMask : UInt32 := 128

/-- An address is not zero. -/
def anyByte (l : List UInt8) : Bool := l.any (· != 0)

/-- `sa->src.ip.ip4 = a`: the other bytes stay. -/
def setIp4 (old new : IpAddr) : IpAddr :=
  ⟨new.bytes.take 4 ++ old.bytes.drop 4, by
    have h := old.size
    have h' := new.size
    simp
    omega⟩

/-- `sa_add_address_inline_crypto`. -/
def saAddAddressInlineCrypto (sa : IpsecSa) : Int × IpsecSa :=
  let inbound := sa.direction == .ingress
  let protocol := getSpiProto t sa.spi sa.direction
  if protocol < 0 then (protocol, sa)
  else if protocol = ipprotoIpip then
    let sa := { sa with flags := sa.flags ||| ip4Transport }
    let r := ruleAt (if inbound then t.acl4RulesIn else t.acl4RulesOut)
      (sp4SpiPresent t sa.spi inbound)
    if r.srcMask = ip4FullMask ∧ r.dstMask = ip4FullMask ∧ anyByte r.src.ip4
        ∧ anyByte r.dst.ip4 then
      (0, { sa with src := setIp4 sa.src r.src, dst := setIp4 sa.dst r.dst })
    else (einval, sa)
  else
    let sa := { sa with flags := sa.flags ||| ip6Transport }
    let r := ruleAt (if inbound then t.acl6RulesIn else t.acl6RulesOut)
      (sp6SpiPresent t sa.spi inbound)
    if r.srcMask = ip6FullMask ∧ r.dstMask = ip6FullMask ∧ anyByte r.src.bytes
        ∧ anyByte r.dst.bytes then
      (0, { sa with src := r.src, dst := r.dst })
    else (einval, sa)

/-- The `switch` over the mode in `sa_add_rules`. -/
def setAddresses (sa : IpsecSa) : Int × IpsecSa :=
  if withoutTransportVersion sa.flags = ip4Tunnel then
    (0, { sa with src := sa.src.swapIp4, dst := sa.dst.swapIp4 })
  else if withoutTransportVersion sa.flags = transport
      ∧ sa.primary.type = .inlineCrypto then
    saAddAddressInlineCrypto t sa
  else (0, sa)

/-- The AEAD algorithms. -/
def isAead (sa : IpsecSa) : Bool :=
  sa.aeadAlgo == .aesGcm || sa.aeadAlgo == .aesCcm
    || sa.aeadAlgo == .chacha20Poly1305

/-- `aad_length`: with ESN the upper half of the sequence number is AAD too. -/
def aadLength : UInt16 := if plat.enableEsn then 4 else 0

/-- The transforms of a SA with a cipher; `authIvLength` is the variable of
    `sa_add_rules`. -/
def cipherXforms (inbound : Bool) (authIvLength : UInt16) (sa : IpsecSa) :
    IpsecXf × XfRef :=
  let cipher : Xform := .cipher
    { algo := sa.cipherAlgo
      key := sa.cipherKey
      op := if inbound then .unprotect else .protect
      ivLength := sa.ivLen }
  let auth : Xform := .auth
    { algo := sa.authAlgo
      key := sa.authKey
      digestLength := sa.digestLen
      op := if inbound then .unprotect else .protect
      ivLength := authIvLength }
  if sa.authAlgo = .aesGmac then
    if inbound then (⟨⟨auth, none⟩, ⟨cipher, none⟩⟩, .a)
    else (⟨⟨cipher, none⟩, ⟨auth, none⟩⟩, .b)
  else if inbound then (⟨⟨auth, some .b⟩, ⟨cipher, none⟩⟩, .a)
  else (⟨⟨cipher, some .b⟩, ⟨auth, none⟩⟩, .a)

/-- The transforms of a SA with an AEAD algorithm; `b` is not written. -/
def aeadXforms (inbound : Bool) (xf : IpsecXf) (sa : IpsecSa) : IpsecXf × XfRef :=
  let aead : Xform := .aead
    { algo := sa.aeadAlgo
      key := sa.cipherKey
      op := if inbound then .unprotect else .protect
      ivLength := if sa.aeadAlgo = .aesCcm then 11 else 12
      aadLength := sa.aadLen + aadLength plat
      digestLength := sa.digestLen }
  ({ xf with a := ⟨aead, none⟩ }, .a)

/-- The capability of a port for a session that is worked on inline. -/
def findCapability (caps : List SecCapability) (type : ActionType)
    (mode : Option SessionMode) (dir : Direction) : Option SecCapability :=
  caps.find? fun c =>
    c.action == type && c.ipsec.any fun x => mode == some x.1 && x.2 == dir

/-- The flow of an inbound SA with inline crypto; the answer about the queue
    action is not looked at. -/
def inboundFlow (inbound : Bool) (i : Nat) (sa : IpsecSa) : Int :=
  if plat.rxDefFlow sa.portid then 0
  else
    let info := plat.ethDevInfoGet sa.portid
    if info.1 ≠ 0 then info.1
    else if plat.rssHashConfGet sa.portid ≠ 0 then -1
    else if plat.flowValidate inbound i .rss ≠ 0
        ∧ plat.flowValidate inbound i .done ≠ 0 then -1
    else if !plat.flowCreate inbound i then -1
    else 0

/-- `sess_conf.ipsec.mode`. -/
def sessionMode (flags : UInt16) : Option SessionMode :=
  if isTransport flags then some .transport
  else if isTunnel flags then some .tunnel
  else none

/-- The session handle, and what the capability says of it. -/
def SaSlot.setSession (s : SaSlot) (ses : SesId) (olFlags : UInt32) : SaSlot :=
  { s with sa.primary := { s.sa.primary with ses := some ses, olFlags := olFlags } }

/-- `create_inline_session` on the primary session, for inline crypto. -/
def createInlineCrypto (inbound : Bool) (i : Nat) (s : SaSlot) :
    Except Stop (Int × SaSlot) :=
  if !plat.ethDevGetSecCtx s.sa.portid then .ok (-1, s)
  else
    match plat.securitySessionCreate inbound i s with
    | none => .ok (-1, s)
    | some ses =>
        match plat.securityCapabilitiesGet s.sa.portid with
        | none => .error .null
        | some caps =>
            match findCapability caps s.sa.primary.type (some .tunnel)
                s.sa.direction with
            | none => .ok (-1, s.setSession ses s.sa.primary.olFlags)
            | some cap =>
                let s := s.setSession ses cap.olFlags
                if s.sa.direction = .ingress then
                  .ok (inboundFlow plat inbound i s.sa, s)
                else .ok (if plat.flowCreate inbound i then 0 else -1, s)

/-- The same for inline protocol. -/
def createInlineProtocol (inbound : Bool) (i : Nat) (s : SaSlot) :
    Except Stop (Int × SaSlot) :=
  if !plat.ethDevGetSecCtx s.sa.portid then .ok (-1, s)
  else
    match plat.securitySessionCreate inbound i s with
    | none => .ok (-1, s)
    | some ses =>
        match (plat.securityCapabilitiesGet s.sa.portid).bind fun caps =>
          findCapability caps s.sa.primary.type (sessionMode s.sa.flags)
            s.sa.direction with
        | none => .ok (-1, s.setSession ses s.sa.primary.olFlags)
        | some cap => .ok (0, s.setSession ses cap.olFlags)

/-- `create_inline_session`. -/
def createInlineSession (inbound : Bool) (i : Nat) (s : SaSlot) :
    Except Stop (Int × SaSlot) :=
  match s.sa.primary.type with
  | .inlineCrypto => createInlineCrypto plat inbound i s
  | .inlineProtocol => createInlineProtocol plat inbound i s
  | _ => .ok (0, s)

/-! ## All SAs of a direction -/

/-- The table and the variable `auth_iv_length`, which lives through the loop of
    `sa_add_rules`. -/
structure RuleState where
  tbl : SaTable lib
  authIvLength : UInt16 := 0

variable {lib}

/-- Write slot `i`. -/
def RuleState.setSa (s : RuleState lib) (i : Nat) (slot : SaSlot) : RuleState lib :=
  { s with tbl := { s.tbl with sa := Function.update s.tbl.sa i slot } }

/-- Write the transforms of slot `i`. -/
def RuleState.setXf (s : RuleState lib) (i : Nat) (xf : IpsecXf) : RuleState lib :=
  { s with tbl := { s.tbl with xf := Function.update s.tbl.xf i xf } }

/-- Write the SAD. -/
def RuleState.setSad (s : RuleState lib) (sad : IpsecSad lib) : RuleState lib :=
  { s with tbl := { s.tbl with sad } }

/-- The end of a round, where the slot has its transforms. -/
def addSession (inbound : Bool) (i : Nat) (slot : SaSlot) (s : RuleState lib) :
    Except Stop (Int × RuleState lib) := do
  if isInline slot.sa.primary then
    let (rc, slot) ← createInlineSession plat inbound i slot
    return (if rc ≠ 0 then einval else 0, s.setSa i slot)
  else return (0, s.setSa i slot)

/-- The transforms of a slot, and what comes behind them. -/
def addXforms (inbound : Bool) (i : Nat) (sa : IpsecSa) (s : RuleState lib) :
    Except Stop (Int × RuleState lib) :=
  if isAead sa then
    let r := aeadXforms plat inbound (s.tbl.xf i) sa
    addSession plat inbound i ⟨sa, some r.2⟩ (s.setXf i r.1)
  else if sa.cipherAlgo = .unset then .ok (einval, s)
  else
    let s := if sa.authAlgo = .aesGmac then { s with authIvLength := 12 } else s
    let r := cipherXforms inbound s.authIvLength sa
    addSession plat inbound i ⟨sa, some r.2⟩ (s.setXf i r.1)

/-- A round behind the SAD: `seq`, the port and the addresses. -/
def addBody (inbound : Bool) (i : Nat) (e : IpsecSa) (s : RuleState lib) :
    Except Stop (Int × RuleState lib) :=
  let sa := { e with seq := 0 }
  if isInline sa.primary ∧ checkEthDevCaps plat sa.portid inbound sa.mss ≠ 0 then
    .ok (einval, s.setSa i ⟨sa, none⟩)
  else
    let r := setAddresses t sa
    let s := s.setSa i ⟨r.2, none⟩
    if r.1 < 0 then .ok (r.1, s) else addXforms plat inbound i r.2 s

/-- One round of the loop of `sa_add_rules`. -/
def saAddRule (inbound : Bool) (i : Nat) (e : IpsecSa) (s : RuleState lib) :
    Except Stop (Int × RuleState lib) :=
  if (s.tbl.sa i).sa.spi ≠ 0 then .ok (einval, s)
  else
    let s := s.setSa i ⟨e, none⟩
    if inbound then
      let r := ipsecSadAdd lib t (fun p => (s.tbl.sa p).sa) s.tbl.sad i
      let s := s.setSad r.2
      if r.1 ≠ 0 then .ok (r.1, s) else addBody plat t inbound i e s
    else addBody plat t inbound i e s

/-- `sa_add_rules` from entry `i` on. -/
def saAddRules (inbound : Bool) :
    Nat → List IpsecSa → RuleState lib → Except Stop (Int × RuleState lib)
  | _, [], s => .ok (0, s)
  | i, e :: entries, s => do
      let (rc, s) ← saAddRule plat t inbound i e s
      if rc ≠ 0 then return (rc, s) else saAddRules inbound (i + 1) entries s

/-! ## SAs of the library -/

/-- `fill_ipsec_sa_prm`, or the error of `get_spi_proto`, which leaves the
    structure as it was. -/
def fillIpsecSaPrm (ss : SaSlot) : Except Int RteIpsecSaPrm :=
  let rc := getSpiProto t ss.sa.spi ss.sa.direction
  if rc < 0 then .error rc
  else
    .ok
      { userdata := ss
        mode := if isTransport ss.sa.flags then .transport else .tunnel
        tunnel :=
          if isIp4Tunnel ss.sa.flags then some true
          else if isIp6Tunnel ss.sa.flags then some false
          else none
        proto := rc }

/-- `fill_ipsec_session`. -/
def fillIpsecSession (inbound : Bool) (i : Nat) (ss : RteIpsecSession) :
    Int × RteIpsecSession :=
  if isInline ss ∧ ss.ses.isSome then
    let rc := plat.ipsecSessionPrepare inbound i ss
    (rc, if rc ≠ 0 then {} else ss)
  else (0, ss)

/-- `ipsec_sa_init`. -/
def ipsecSaInit (inbound : Bool) (i : Nat) (lsa : SaSlot) : Int × SaSlot :=
  match fillIpsecSaPrm t lsa with
  | .error rc => (rc, lsa)
  | .ok prm =>
      let rc := plat.ipsecSaInit inbound i prm
      if rc < 0 then (rc, lsa)
      else
        let r := fillIpsecSession plat inbound i lsa.sa.primary
        let lsa := { lsa with sa.primary := r.2 }
        if r.1 ≠ 0 then (r.1, lsa)
        else if lsa.sa.fallbackSessions = 1 then
          let r := fillIpsecSession plat inbound i lsa.sa.fallback
          (r.1, { lsa with sa.fallback := r.2 })
        else (0, lsa)

/-- The loop of `ipsec_satbl_init` over the slots from `i` on. -/
def satblLoop (inbound : Bool) : Nat → Nat → SaTable lib → Int × SaTable lib
  | _, 0, tbl => (0, tbl)
  | i, n + 1, tbl =>
      let r := ipsecSaInit plat t inbound i (tbl.sa i)
      let tbl := { tbl with sa := Function.update tbl.sa i r.2 }
      if r.1 ≠ 0 then (r.1, tbl) else satblLoop inbound (i + 1) n tbl

/-- `-ENOMEM`. -/
def enomem : Int := -12

/-- `ipsec_satbl_init`. -/
def ipsecSatblInit (inbound : Bool) (tbl : SaTable lib) : Int × SaTable lib :=
  let sz := plat.ipsecSaSize (fillIpsecSaPrm t (tbl.sa 0)).toOption
  if sz < 0 then (sz, tbl)
  else if !plat.satblZmalloc inbound then (enomem, tbl)
  else satblLoop plat t inbound 0 tbl.nbSa tbl

/-! ## Both directions -/

/-- `sa_in_cnt`: a family is counted when a SA of the file is entered there. -/
def countsFamily (isV4 : Bool) (e : IpsecSa) : Bool :=
  let mode := withoutTransportVersion e.flags
  mode == transport || mode == if isV4 then ip4Tunnel else ip6Tunnel

variable (lib)

/-- The table of a family in `ipsec_sad_create`. -/
def sadTable (isV4 : Bool) : Except Int (Option lib.Table) :=
  if t.saIn.any (countsFamily isV4) then
    match plat.sadCreate isV4 with
    | none => .ok (some lib.empty)
    | some errno => .error (-errno)
  else .ok none

/-- `ipsec_sad_create`. -/
def ipsecSadCreate : Except Int (IpsecSad lib) := do
  let sadV4 ← sadTable lib plat t true
  let sadV6 ← sadTable lib plat t false
  return { sadV4, sadV6 }

/-- What `sa_create` and `ipsec_sad_create` make for a direction, when both
    succeed. -/
def freshTable (inbound : Bool) : Option (SaTable lib) :=
  if !plat.saCreate inbound then none
  else
    let nbSa := (saEntries t inbound).length
    if inbound then
      (ipsecSadCreate lib plat t).toOption.map fun sad => { nbSa, sad }
    else some { nbSa }

/-- The part of `sa_init` for one direction.  What `sa_add_rules` returns is not
    looked at. -/
def saInitDirection (inbound : Bool) : Except Stop (Option (SaTable lib)) :=
  let entries := saEntries t inbound
  if entries = [] then .ok none
  else
    match freshTable lib plat t inbound with
    | none => .error .exit
    | some tbl => do
        let (_, s) ← saAddRules plat t inbound 0 entries { tbl }
        if plat.enable then
          let r := ipsecSatblInit plat t inbound s.tbl
          if r.1 ≠ 0 then .error .exit else return some r.2
        else return some s.tbl

/-- `sa_in` and `sa_out` of `struct socket_ctx`. -/
structure SocketCtx where
  saIn : Option (SaTable lib) := none
  saOut : Option (SaTable lib) := none

/-- The table of a direction. -/
def SocketCtx.sas {lib : SadLib} (ctx : SocketCtx lib) (inbound : Bool) :
    Option (SaTable lib) :=
  if inbound then ctx.saIn else ctx.saOut

/-- `sa_init`. -/
def saInit (ctx : Option (SocketCtx lib)) : Except Stop (SocketCtx lib) :=
  match ctx with
  | none => .error .exit
  | some ctx =>
      if ctx.saIn.isSome then .error .exit
      else if ctx.saOut.isSome then .error .exit
      else do
        let saIn ← saInitDirection lib plat t true
        let saOut ← saInitDirection lib plat t false
        return { saIn, saOut }

end SaInit
