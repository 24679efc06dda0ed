import Mathlib.Logic.Function.Basic

/-! # Grouping by SA pointer

    `sa_group` of `ipsec_process.c`, statement by statement: a group is closed when
    the next one begins, and the first one begins at a pointer that none is equal
    to, the address of a local (`nosa`).  The entries of `grp` are what the stack
    holds until they are written; a place in `pkts` is its index. -/

namespace SaGroup

/-- `struct rte_ipsec_group` as far as it is written. -/
structure RteIpsecGroup (α : Type) where
  /-- `id.ptr` -/
  id : α
  m : Nat
  cnt : Nat

/-- The variables of `sa_group`. -/
structure Grouping (α : Type) where
  sa : α
  i : Nat
  n : Nat
  grp : Nat → RteIpsecGroup α

variable {α : Type} [DecidableEq α] (nosa : α)

/-- `grp[n].cnt = pkts + i - grp[n].m`. -/
def Grouping.setCnt (s : Grouping α) : Grouping α :=
  { s with grp := Function.update s.grp s.n { s.grp s.n with cnt := s.i - (s.grp s.n).m } }

/-- `n += (sa != nosa)`. -/
def Grouping.count (s : Grouping α) : Grouping α :=
  { s with n := s.n + if s.sa ≠ nosa then 1 else 0 }

/-- `grp[n].id.ptr = sa_ptr[i]`, `grp[n].m = pkts + i`, `sa = sa_ptr[i]`. -/
def Grouping.enter (s : Grouping α) (p : α) : Grouping α :=
  { s with
    grp := Function.update s.grp s.n { s.grp s.n with id := p, m := s.i }
    sa := p }

/-- A round of the loop, with `i++`. -/
def saGroupStep (s : Grouping α) (p : α) : Grouping α :=
  let s := if s.sa ≠ p then (s.setCnt.count nosa).enter p else s
  { s with i := s.i + 1 }

/-- Before the loop. -/
def saGroupStart (grp : Nat → RteIpsecGroup α) : Grouping α :=
  ⟨nosa, 0, 0, Function.update grp 0 { grp 0 with m := 0 }⟩

/-- `sa_group`: `n` and `grp`. -/
def saGroup (saPtr : List α) (grp : Nat → RteIpsecGroup α) : Nat × (Nat → RteIpsecGroup α) :=
  let s := saPtr.foldl (saGroupStep nosa) (saGroupStart nosa grp)
  if s.sa ≠ nosa then
    let s := s.setCnt
    (s.n + 1, s.grp)
  else (s.n, s.grp)

/-- The groups that are returned. -/
def groups (r : Nat × (Nat → RteIpsecGroup α)) : List (RteIpsecGroup α) :=
  (List.range r.1).map r.2

end SaGroup
