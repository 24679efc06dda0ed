import IpsecSecgw.PollModel
import IpsecSecgw.SaInitModel
import IpsecSecgw.SaParseModel

/-! # Building the SP databases

    `sp4_init` and `sp6_init`, the same text for both families, and the loop of `main`
    that builds the contexts of one NUMA socket after the other.  The rules lie in four
    global arrays; `check_spi_value` puts the index of the SA in the place of the SPI,
    in these arrays, before a context is made of them. -/

namespace SpInit

open SaModel MbufModel SadModel SpiSearch SaInit WorkerModel IpsecModel SecgwModel

/-! ## Data -/

/-- The rules of a family and direction. -/
def aclRules (t : Tables) (isV4 inbound : Bool) : List AclRules :=
  if isV4 then if inbound then t.acl4RulesIn else t.acl4RulesOut
  else if inbound then t.acl6RulesIn else t.acl6RulesOut

/-- They are others. -/
def setAclRules (t : Tables) (isV4 inbound : Bool) (rules : List AclRules) : Tables :=
  if isV4 then
    if inbound then { t with acl4RulesIn := rules } else { t with acl4RulesOut := rules }
  else if inbound then { t with acl6RulesIn := rules } else { t with acl6RulesOut := rules }

/-- What the initialisation of a socket asks. -/
structure SocketEnv where
  plat : Platform
  /-- `rte_acl_create`, `rte_acl_add_rules` and `rte_acl_build` for a family and
      direction; the fields of a rule that are not kept depend on its place -/
  aclInit : Bool → Bool → List AclRules → Option SpCtx
  /-- a packet gets the `userdata` of a rule, or zero -/
  aclInit_result : ∀ isV4 inbound rules acl, aclInit isV4 inbound rules = some acl →
    ∀ b a, acl b a = 0 ∨ ∃ r ∈ rules, r.userdata = acl b a
  /-- `rt_init` comes back -/
  rtInit : Bool

/-- A context, with the rules that were copied into it. -/
structure SpDb where
  rules : List AclRules
  acl : SpCtx

variable (lib : SadLib)

/-- `struct socket_ctx`. -/
structure Socket where
  sas : SocketCtx lib := {}
  spIp4In : Option SpDb := none
  spIp4Out : Option SpDb := none
  spIp6In : Option SpDb := none
  spIp6Out : Option SpDb := none

variable {lib}

/-- The context of a family and direction. -/
def Socket.sp (s : Socket lib) (isV4 inbound : Bool) : Option SpDb :=
  if isV4 then if inbound then s.spIp4In else s.spIp4Out
  else if inbound then s.spIp6In else s.spIp6Out

/-- The contexts of a family are set. -/
def Socket.setSp (s : Socket lib) (isV4 : Bool) (spIn spOut : Option SpDb) : Socket lib :=
  if isV4 then { s with spIp4In := spIn, spIp4Out := spOut }
  else { s with spIp6In := spIn, spIp6Out := spOut }

/-! ## Rules -/

/-- `sa_ctx->sa`; with a null context nothing is read there. -/
def sar (sas : Option (SaTable lib)) (i : Nat) : IpsecSa :=
  match sas with
  | none => {}
  | some tbl => (tbl.sa i).sa

/-- A rule of `check_spi_value`; `none` where its SPI is not found. -/
def checkSpiOne (t : Tables) (sas : Option (SaTable lib)) (inbound : Bool)
    (r : AclRules) : Option AclRules :=
  let spi := r.userdata
  if spi ≠ discard ∧ spi ≠ bypass then
    let spiIdx := saSpiPresent t (sar sas) spi inbound
    if spiIdx < 0 then none else some { r with userdata := UInt32.ofInt (spiIdx + 1) }
  else some r

/-- `check_spi_value` on the rules of a family. -/
def checkSpiValue (t : Tables) (sas : Option (SaTable lib)) (isV4 inbound : Bool) :
    Except Stop Tables :=
  match (aclRules t isV4 inbound).mapM (checkSpiOne t sas inbound) with
  | none => .error .exit
  | some rules => .ok (setAclRules t isV4 inbound rules)

/-- `acl4_init`, `acl6_init`, where there are rules. -/
def aclInit (env : SocketEnv) (isV4 inbound : Bool) (rules : List AclRules) :
    Except Stop (Option SpDb) :=
  if rules = [] then .ok none
  else
    match env.aclInit isV4 inbound rules with
    | none => .error .exit
    | some acl => .ok (some ⟨rules, acl⟩)

/-- `sp4_init`, `sp6_init`. -/
def spInit (env : SocketEnv) (isV4 : Bool) (t : Tables) (s : Socket lib) :
    Except Stop (Tables × Socket lib) :=
  if (s.sp isV4 true).isSome then .error .exit
  else if (s.sp isV4 false).isSome then .error .exit
  else do
    let t ← checkSpiValue t s.sas.saIn isV4 true
    let t ← checkSpiValue t s.sas.saOut isV4 false
    let spIn ← aclInit env isV4 true (aclRules t isV4 true)
    let spOut ← aclInit env isV4 false (aclRules t isV4 false)
    return (t, s.setSp isV4 spIn spOut)

/-! ## Sockets -/

/-- A socket in the loop of `main`, with the arrays as the sockets before it have left
    them. -/
def initSocket (lib : SadLib) (env : SocketEnv) (t : Tables) :
    Except Stop (Tables × Socket lib) := do
  let sas ← saInit lib env.plat t (some {})
  let (t, s) ← spInit env true t { sas }
  let (t, s) ← spInit env false t s
  if env.rtInit then return (t, s) else .error .exit

/-- The loop. -/
def initSockets (lib : SadLib) :
    List SocketEnv → Tables → Except Stop (Tables × List (Socket lib))
  | [], t => .ok (t, [])
  | env :: envs, t => do
      let (t, s) ← initSocket lib env t
      let (t, sockets) ← initSockets lib envs t
      return (t, s :: sockets)

/-! ## Lcores -/

/-- The SA context of a lcore; `base` is where its entries lie. -/
def saCtx (sas : Option (SaTable lib)) (base : SaPtr) : SaCtx :=
  ⟨base, UInt32.ofNat ((sas.map SaTable.nbSa).getD 0)⟩

/-- The contexts a lcore takes from its socket. -/
def Socket.conf (s : Socket lib) (baseIn baseOut : SaPtr) (cfg : LcoreConf) : LcoreConf :=
  { cfg with
    inCtx :=
      ⟨s.spIp4In.map SpDb.acl, s.spIp6In.map SpDb.acl, saCtx s.sas.saIn baseIn⟩
    outCtx :=
      ⟨s.spIp4Out.map SpDb.acl, s.spIp6Out.map SpDb.acl, saCtx s.sas.saOut baseOut⟩ }

/-! ## Options -/

/-- `parse_decimal`: `strtoull` with nothing behind the number; `none` where there is
    something, or where the result is above `INT64_MAX`. -/
def parseDecimal (str : List Char) : Option Nat :=
  let r := SaParse.signed str
  let n := SaParse.decDigits 0 r.2
  if r.2 = [] ∨ r.2.any (fun c => !c.isDigit) ∨ 2 ^ 64 ≤ n then none
  else
    let num := if r.1 then (2 ^ 64 - n) % 2 ^ 64 else n
    if 2 ^ 63 ≤ num then none else some num

/-- `--single-sa`: `single_sa` and `single_sa_idx`. -/
def singleSaOption (cfg : LcoreConf) (optarg : List Char) : Option LcoreConf :=
  match parseDecimal optarg with
  | none => none
  | some ret =>
      if 0xffffffff < ret then none
      else some { cfg with singleSa := true, singleSaIdx := UInt32.ofNat ret }

end SpInit
