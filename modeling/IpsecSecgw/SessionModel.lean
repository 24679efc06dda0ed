import IpsecSecgw.IpsecModel

/-! # Session creation, call by call

    `create_lookaside_session` and `fill_ipsec_session` of `ipsec_process.c`
    with each library call and its result on its own.  `IpsecModel` asks one
    question for the session object; here taking it from the mempool and
    initialising it are two calls that can fail one without the other, the
    record has its SA pointer, and the mempool knows which objects are in use.

    `Answers` are the results of the libraries within one call. -/

namespace SessionModel

open SaModel CdevModel IpsecModel

/-- The session objects: those that are in use, and the device each was
    initialised on.  An object that has not been taken is blank. -/
structure Pool where
  used : List SesId := []
  dev : SesId → Option Nat := fun _ => none
  next : SesId := 0
  numbered : ∀ id ∈ used, id < next
  blank : ∀ id, next ≤ id → dev id = none

/-- The mempool before any object is taken. -/
def Pool.full : Pool where
  numbered := fun _ h => absurd h List.not_mem_nil
  blank := fun _ _ => rfl

/-- Take an object. -/
def Pool.take (p : Pool) : Pool where
  used := p.used ++ [p.next]
  dev := p.dev
  next := p.next + 1
  numbered := by
    intro id hid
    rcases List.mem_append.mp hid with h | h
    · exact Nat.lt_succ_of_lt (p.numbered id h)
    · rw [List.mem_singleton.mp h]
      exact Nat.lt_succ_self _
  blank := fun id h => p.blank id (Nat.le_of_succ_le h)

/-- An object that has been taken is initialised on a device. -/
def Pool.initOn (p : Pool) (id : SesId) (dev : Nat) (h : id < p.next) : Pool where
  used := p.used
  dev := Function.update p.dev id (some dev)
  next := p.next
  numbered := p.numbered
  blank := by
    intro i hi
    rw [Function.update_of_ne (Nat.ne_of_gt (Nat.lt_of_lt_of_le h hi))]
    exact p.blank i hi

/-- `struct rte_ipsec_session`: besides what `RteIpsecSession` has, the pointer
    to the `rte_ipsec_sa`, and `crypto.dev_id`. -/
structure FullSession extends RteIpsecSession where
  sa : Option Nat := none
  devId : Nat := 0
  deriving DecidableEq

/-- What a call works on: the record, `sa->cdev_id_qp`, the session objects. -/
structure SessionState where
  ss : FullSession
  cdevIdQp : UInt32 := 0
  pool : Pool

/-- What the libraries answer within one call. -/
structure Answers where
  /-- `RTE_CRYPTODEV_FF_SYM_CPU_CRYPTO` of a device -/
  cpuCrypto : Nat → Bool
  /-- does `rte_cryptodev_sym_session_create` get an object? -/
  symCreate : Bool
  /-- `rte_cryptodev_sym_session_init` of an object on a device -/
  symInit : Nat → SesId → Int
  /-- does `rte_security_session_create` succeed? -/
  secCreate : Bool
  /-- `rte_ipsec_session_prepare` -/
  prepare : Int

/-- `rte_cryptodev_sym_session_create`. -/
def rteCryptodevSymSessionCreate (ans : Answers) (p : Pool) : Option SesId × Pool :=
  if ans.symCreate then (some p.next, p.take) else (none, p)

/-- `rte_cryptodev_sym_session_init`: a null pointer is refused, and an object
    is initialised when the device has answered 0. -/
def rteCryptodevSymSessionInit (ans : Answers) (dev : Nat) (ses : Option SesId)
    (p : Pool) : Int × Pool :=
  match ses with
  | none => (einval, p)
  | some id =>
      if h : ans.symInit dev id = 0 ∧ id < p.next then (0, p.initOn id dev h.2)
      else (ans.symInit dev id, p)

/-- `rte_security_session_create`: an object that is initialised, or none. -/
def rteSecuritySessionCreate (ans : Answers) (dev : Nat) (p : Pool) :
    Option SesId × Pool :=
  if ans.secCreate then
    (some p.next, p.take.initOn p.next dev (Nat.lt_succ_self _))
  else (none, p)

/-- `create_lookaside_session`; `key` is the key of the SA on this lcore. -/
def createLookasideSession (ans : Answers) (ctx : IpsecCtx) (key : CdevKey)
    (s : SessionState) : Int × SessionState :=
  match ctx.cdevMap key with
  | none => (-1, s)
  | some cdevIdQp =>
      let dev := (ctx.tbl cdevIdQp).id
      let num := UInt32.ofNat cdevIdQp
      match s.ss.type with
      | .lookasideProtocol =>
          let r := rteSecuritySessionCreate ans dev s.pool
          let s := { s with ss := { s.ss with ses := r.1 }, pool := r.2 }
          if r.1 = none then (-1, s) else (0, { s with cdevIdQp := num })
      | .inlineCrypto | .inlineProtocol => (-1, s)
      | .cpuCrypto =>
          if !ans.cpuCrypto dev then (enotsup, s)
          else
            let r := rteCryptodevSymSessionCreate ans s.pool
            -- neither the pointer nor the return code is looked at
            let pool := (rteCryptodevSymSessionInit ans dev r.1 r.2).2
            (0, { ss := { s.ss with devId := dev, ses := r.1 }
                  cdevIdQp := num, pool := pool })
      | .none =>
          let r := rteCryptodevSymSessionCreate ans s.pool
          let pool := (rteCryptodevSymSessionInit ans dev r.1 r.2).2
          (0, { ss := { s.ss with ses := r.1 }, cdevIdQp := num, pool := pool })

/-- The end of `fill_ipsec_session`: a record that cannot be prepared is
    zeroed. -/
def prepareSession (ans : Answers) (s : SessionState) : Int × SessionState :=
  if ans.prepare ≠ 0 then (ans.prepare, { s with ss := {} }) else (0, s)

/-- `fill_ipsec_session` of `ipsec_process.c`; its assertions are compiled
    out. -/
def fillIpsecSession (ans : Answers) (ctx : IpsecCtx) (key : CdevKey)
    (s : SessionState) : Int × SessionState :=
  match s.ss.type with
  | .none | .cpuCrypto | .lookasideProtocol =>
      let r := createLookasideSession ans ctx key s
      if r.1 ≠ 0 then r else prepareSession ans r.2
  | .inlineCrypto | .inlineProtocol => prepareSession ans s

end SessionModel
