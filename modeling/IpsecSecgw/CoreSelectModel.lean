import IpsecSecgw.EventHelperModel

/-! # The search for a core

    The loops of `event_helper.c` that look for a core, round by round:
    `eh_get_enabled_cores`, `eh_get_next_eth_core`, `eh_get_next_active_core` and
    `eh_set_default_conf_link` over the last one.  Whether they come to an end is a
    question here, so each has a number of rounds, and `none` where they are used up.

    `rte_get_next_lcore` is asked from outside. -/

namespace CoreSelect

open EventHelper

/-- The lcores that are enabled, in their order, and `rte_get_next_lcore(i, 0, wrap)`:
    the next of them behind `i`, and behind the last one `RTE_MAX_LCORE` or, with
    `wrap`, the first one again. -/
structure LcoreEnv where
  lcores : List UInt32
  sorted : lcores.Pairwise (· < ·)
  bound : ∀ i ∈ lcores, i < rteMaxLcore
  getNextLcore : UInt32 → Bool → UInt32
  getNextLcore_straight : ∀ i, i + 1 ≤ rteMaxLcore →
    getNextLcore i false = (lcores.find? (i + 1 ≤ ·)).getD rteMaxLcore
  getNextLcore_wrap : lcores ≠ [] → ∀ i,
    getNextLcore i true
      = ((lcores.find? ((i + 1) % rteMaxLcore ≤ ·)).or lcores.head?).getD rteMaxLcore

/-- `LCORE_ID_ANY`, `-1` as an `unsigned int`. -/
def noCore : UInt32 := 0xffffffff

variable (env : LcoreEnv) (ethCoreMask : UInt32 → Bool)

/-- `RTE_LCORE_FOREACH` of `eh_get_enabled_cores`. -/
def enabledLoop : Nat → UInt32 → Nat → Option Nat
  | 0, _, _ => none
  | fuel + 1, i, count =>
      if i < rteMaxLcore then
        enabledLoop fuel (env.getNextLcore i false)
          (if ethCoreMask i then count + 1 else count)
      else some count

/-- `eh_get_enabled_cores`. -/
def ehGetEnabledCores (fuel : Nat) : Option Nat :=
  enabledLoop env ethCoreMask fuel (env.getNextLcore noCore false) 0

/-- The loop of `eh_get_next_eth_core`: what is returned, and `prev_core`. -/
def ethCoreLoop : Nat → UInt32 → Option (UInt32 × UInt32)
  | 0, _ => none
  | fuel + 1, prevCore =>
      let nextCore := env.getNextLcore prevCore true
      if nextCore = rteMaxLcore then some (nextCore, prevCore)
      else if ethCoreMask nextCore then some (nextCore, nextCore)
      else ethCoreLoop fuel nextCore

/-- `eh_get_next_eth_core`. -/
def ehGetNextEthCore (prevCore : UInt32) (fuel : Nat) : Option (UInt32 × UInt32) :=
  (ehGetEnabledCores env ethCoreMask fuel).bind fun count =>
    if count = 0 then some (rteMaxLcore, prevCore)
    else ethCoreLoop env ethCoreMask fuel prevCore

/-- `eh_get_next_active_core`. -/
def ehGetNextActiveCore : Nat → UInt32 → Option UInt32
  | 0, _ => none
  | fuel + 1, prevCore =>
      let nextCore := env.getNextLcore prevCore false
      if nextCore = rteMaxLcore then some nextCore
      else if ethCoreMask nextCore then ehGetNextActiveCore fuel nextCore
      else some nextCore

/-- The loop of `eh_set_default_conf_link`. -/
def linkLoop (eventdevId : UInt8) (fuel : Nat) :
    List Nat → UInt32 → EventmodeConf → Option EventmodeConf
  | [], _, c => some c
  | i :: is, prevCore, c =>
      (ehGetNextActiveCore env c.ethCoreMask fuel prevCore).bind fun lcoreId =>
        if lcoreId = rteMaxLcore then some c
        else
          linkLoop eventdevId fuel is lcoreId
            { c with
              link := Function.update c.link c.nbLink.toNat
                { c.link c.nbLink.toNat with
                  eventdevId, eventPortId := UInt8.ofNat i, lcoreId := lcoreId.toUInt8 }
              nbLink := c.nbLink + 1 }

/-- `eh_set_default_conf_link`. -/
def ehSetDefaultConfLink (c : EventmodeConf) (fuel : Nat) : Option EventmodeConf :=
  let d := c.eventdevConfig 0
  linkLoop env d.eventdevId fuel (List.range d.nbEventport.toNat) noCore
    { c with allEvQueueToEvPort := true }

end CoreSelect
