import IpsecSecgw.Lib.ByteStore

/-! # Messages from NATS

    `onMsg` of `ngtl/nats/sub.c` keeps the last two messages in the two rows of
    `ike_string`, in turn.  The rows lie behind one another, so the memory is flat
    and begins with the first row; a write behind the second ends the call with
    `overrun`. -/

namespace Nats

open ByteStore

/-- The bytes of a row, `char ike_string[2][1024]`. -/
def rowSize : Nat := 1024

/-- `sizeof(ike_string)`. -/
def sizeofIkeString : Nat := 2 * rowSize

/-- `ike_string` and `ike_string_count`. -/
structure IkeString where
  mem : Nat → UInt8
  count : UInt8

/-- The static objects before the first message. -/
def IkeString.init : IkeString := ⟨fun _ => 0, 0⟩

/-- `&ike_string[count]`. -/
def rowAt (count : UInt8) : Nat := rowSize * count.toNat

/-- The text of a `char *`.  The library puts a zero behind the payload. -/
def text (data : List UInt8) : List UInt8 := data.takeWhile (· ≠ 0)

/-- What `snprintf(_, size, "%s", data)` writes. -/
def snprintf (size : Nat) (data : List UInt8) : List UInt8 := (text data).take (size - 1) ++ [0]

/-- A write behind the array. -/
inductive NatsFault
  | overrun
  deriving DecidableEq

/-- `onMsg`. -/
def onMsg (s : IkeString) (data : List UInt8) : Except NatsFault IkeString :=
  let out := snprintf sizeofIkeString data
  if rowAt s.count + out.length ≤ sizeofIkeString then
    let count := s.count + 1
    .ok ⟨store s.mem (rowAt s.count) out, if count = 2 then 0 else count⟩
  else .error .overrun

/-- The addresses `onMsg` writes. -/
def written (s : IkeString) (data : List UInt8) : List Nat :=
  List.range' (rowAt s.count) (snprintf sizeofIkeString data).length

end Nats
