import ReactorRpc.BufferQueue
import ReactorRpc.Library.PrefixCode

namespace ReactorRpc
open Streams

/-- `htonl` on the little-endian hosts the program is built for: the four
bytes of the word in memory, reversed. -/
def htonl (v : UInt32) : UInt32 := UInt32.ofNat (leNat (leBytes 4 v.toNat).reverse)

def ntohl (v : UInt32) : UInt32 := htonl v

/-- `static_cast<int32_t>`: the word read in two's complement. -/
def asInt32 (v : UInt32) : Int :=
  if v.toNat < 2 ^ 31 then v.toNat else (v.toNat : Int) - 2 ^ 32

/-- The bytes of an integer in the host's memory. -/
def wordBytes (v : UInt32) : Bytes := leBytes 4 v.toNat

def longBytes (v : UInt64) : Bytes := leBytes 8 v.toNat

/-- `memcpy` of the first bytes of a string into an integer. -/
def loadWord (bs : Bytes) : UInt32 := UInt32.ofNat (leNat (bs.take 4))

def loadLong (bs : Bytes) : UInt64 := UInt64.ofNat (leNat (bs.take 8))

/-- The longest frame the decoder accepts, length prefix not counted. -/
def maxFrame : Nat := 64 * 1024 * 1024

namespace RpcCodec

def htonll (val : UInt64) : UInt64 :=
  ((htonl (val &&& 0xFFFFFFFF).toUInt32).toUInt64 <<< 32) ||| (htonl (val >>> 32).toUInt32).toUInt64

def ntohll (val : UInt64) : UInt64 := htonll val

def pack (data : Bytes) : Bytes :=
  let len := UInt32.ofNat data.length
  wordBytes (htonl len) ++ data

def packWithId (id : UInt64) (data : Bytes) : Bytes :=
  let len := UInt32.ofNat (8 + data.length)
  wordBytes (htonl len) ++ longBytes (htonll id) ++ data

def tryUnpack (buf : Buffer) : Bytes × Buffer :=
  if buf.readableBytes < 4 then ([], buf)
  else
    let len := asInt32 (ntohl (loadWord buf.peek))
    if len < 0 ∨ len > maxFrame then ([], buf.retrieveAll)
    else if buf.readableBytes < 4 + len.toNat then ([], buf)
    else (buf.retrieve 4).retrieveAsString len.toNat

/-- The returned string, and the buffer and the id reference as they are left. -/
structure Unpacked where
  data : Bytes
  buf : Buffer
  id : UInt64
  deriving DecidableEq

def tryUnpackWithId (buf : Buffer) (id : UInt64) : Unpacked :=
  if buf.readableBytes < 4 then ⟨[], buf, id⟩
  else
    let len := asInt32 (ntohl (loadWord buf.peek))
    if len < 0 ∨ len > maxFrame then ⟨[], buf.retrieveAll, 0⟩
    else if buf.readableBytes < 4 + len.toNat then ⟨[], buf, id⟩
    else
      let body := buf.retrieve 4
      if len < 8 then ⟨[], body.retrieveAll, 0⟩
      else
        let id := ntohll (loadLong body.peek)
        let (data, rest) := (body.retrieve 8).retrieveAsString (len.toNat - 8)
        ⟨data, rest, id⟩

end RpcCodec

@[simp] theorem wordBytes_length (v : UInt32) : (wordBytes v).length = 4 := leBytes_length 4 _

@[simp] theorem longBytes_length (v : UInt64) : (longBytes v).length = 8 := leBytes_length 8 _

theorem htonl_toNat (v : UInt32) : (htonl v).toNat = beNat (leBytes 4 v.toNat) := by
  have bound := beNat_lt (leBytes 4 v.toNat)
  rw [leBytes_length] at bound
  rw [htonl, ← beNat, UInt32.toNat_ofNat_of_lt' (by simpa using bound)]

/-- Network order in memory is the most significant byte first. -/
theorem wordBytes_htonl (v : UInt32) : wordBytes (htonl v) = beBytes 4 v.toNat := by
  have same := leBytes_leNat (leBytes 4 v.toNat).reverse
  rw [List.length_reverse, leBytes_length] at same
  rw [wordBytes, htonl_toNat, beNat, same, beBytes]

theorem ntohl_loadWord {bs : Bytes} (enough : 4 ≤ bs.length) :
    (ntohl (loadWord bs)).toNat = beNat (bs.take 4) := by
  have size : (bs.take 4).length = 4 := by rw [List.length_take]; omega
  have bound := leNat_lt (bs.take 4)
  rw [size] at bound
  have same := leBytes_leNat (bs.take 4)
  rw [size] at same
  rw [ntohl, htonl_toNat, loadWord, UInt32.toNat_ofNat_of_lt' (by simpa using bound), same]

theorem low_half (val : UInt64) : (val &&& 0xFFFFFFFF).toUInt32.toNat = val.toNat % 256 ^ 4 := by
  have mask : val.toNat % 2 ^ 32 &&& 2 ^ 32 - 1 = val.toNat % 2 ^ 32 := by
    rw [Nat.and_two_pow_sub_one_eq_mod, Nat.mod_mod]
  simpa using mask

theorem high_half (val : UInt64) : (val >>> 32).toUInt32.toNat = val.toNat / 256 ^ 4 := by
  have bound := val.toNat_lt
  have shifted : val.toNat >>> 32 = val.toNat / 2 ^ 32 := Nat.shiftRight_eq_div_pow _ _
  simp
  omega

theorem join_halves (upper lower : UInt32) :
    ((upper.toUInt64 <<< 32) ||| lower.toUInt64).toNat = upper.toNat * 256 ^ 4 + lower.toNat := by
  have above := upper.toNat_lt
  have joined := Nat.shiftLeft_add_eq_or_of_lt (i := 32) lower.toNat_lt upper.toNat
  rw [Nat.shiftLeft_eq] at joined
  have small : upper.toNat * 2 ^ 32 % 2 ^ 64 = upper.toNat * 2 ^ 32 := by omega
  rw [UInt64.toNat_or, UInt64.toNat_shiftLeft, UInt32.toNat_toUInt64, UInt32.toNat_toUInt64]
  simp only [UInt64.toNat_ofNat, Nat.shiftLeft_eq, Nat.reducePow, Nat.reduceMod] at joined small ⊢
  rw [small, ← joined]

/-- `htonll` swaps the halves of a long and the bytes of each half, so that in
memory its most significant byte comes first. -/
theorem longBytes_htonll (val : UInt64) :
    longBytes (RpcCodec.htonll val) = beBytes 8 val.toNat := by
  have low : leBytes 4 (htonl (val &&& 0xFFFFFFFF).toUInt32).toNat = (leBytes 4 val.toNat).reverse := by
    rw [← wordBytes, wordBytes_htonl, low_half, beBytes, leBytes_mod]
  have high : leBytes 4 (htonl (val >>> 32).toUInt32).toNat =
      (leBytes 4 (val.toNat / 256 ^ 4)).reverse := by
    rw [← wordBytes, wordBytes_htonl, high_half, beBytes]
  have bound := (htonl (val >>> 32).toUInt32).toNat_lt
  have split := leBytes_append 4 4 val.toNat
  rw [longBytes, RpcCodec.htonll, join_halves, leBytes_append 4 4]
  have first : ∀ u l : Nat, l < 256 ^ 4 → (u * 256 ^ 4 + l) % 256 ^ 4 = l % 256 ^ 4 ∧
      (u * 256 ^ 4 + l) / 256 ^ 4 = u := by
    intro u l small
    omega
  obtain ⟨front, back⟩ := first (htonl (val &&& 0xFFFFFFFF).toUInt32).toNat _ (by simpa using bound)
  rw [leBytes_congr front, back, low, high, beBytes, split, List.reverse_append]

/-- Byte order is undone by the same swap. -/
theorem ntohll_loadLong {bs : Bytes} (enough : 8 ≤ bs.length) :
    (RpcCodec.ntohll (loadLong bs)).toNat = beNat (bs.take 8) := by
  have size : (bs.take 8).length = 8 := by rw [List.length_take]; omega
  have bound := leNat_lt (bs.take 8)
  rw [size] at bound
  have same := leBytes_leNat (bs.take 8)
  rw [size] at same
  have loaded : (loadLong bs).toNat = leNat (bs.take 8) := by
    rw [loadLong, UInt64.toNat_ofNat_of_lt' (by simpa using bound)]
  have memory := congrArg leNat (longBytes_htonll (loadLong bs))
  rw [longBytes, leNat_leBytes, loaded, beBytes, same, ← beNat] at memory
  have small := (RpcCodec.htonll (loadLong bs)).toNat_lt
  rw [RpcCodec.ntohll, ← memory, Nat.mod_eq_of_lt (by simpa using small)]

end ReactorRpc
