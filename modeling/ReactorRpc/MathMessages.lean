import Mathlib.Data.UInt
import ReactorRpc.RpcHeader

namespace ReactorRpc.Math
open Streams

/-- An `int32` field of a merged message: `from` where its has-bit is set. -/
def mergeInt32 (own from_ : Option Int32) : Option Int32 := from_.or own

structure AddRequest where
  a : Option Int32 := none
  b : Option Int32 := none
  deriving DecidableEq

structure AddResponse where
  sum : Option Int32 := none
  deriving DecidableEq

structure SubRequest where
  a : Option Int32 := none
  b : Option Int32 := none
  deriving DecidableEq

structure SubResponse where
  diff : Option Int32 := none
  deriving DecidableEq

section
variable [Protobuf]

/-- An optional `int32` field. -/
def readInt32 {M : Type} (set : Int32 → M) : Bytes → Option (M × Bytes) :=
  readInto Protobuf.readVarint32 fun val => set val.toInt32

/-- `WriteInt32ToArray` for a field whose has-bit is set. -/
def int32Field (number : Nat) : Option Int32 → Bytes
  | none => []
  | some value => Protobuf.writeInt32 number value.toUInt32

/-- The fields of a message with one `int32`, and of one with two. -/
def knownOne {M : Type} (set : M → Int32 → M) (msg : M) : Nat → Option (Bytes → Option (M × Bytes))
  | 8 => some (readInt32 (set msg))
  | _ => none

def knownTwo {M : Type} (setFirst setSecond : M → Int32 → M) (msg : M) :
    Nat → Option (Bytes → Option (M × Bytes))
  | 8 => some (readInt32 (setFirst msg))
  | 16 => some (readInt32 (setSecond msg))
  | _ => none

namespace AddRequest

def known : AddRequest → Nat → Option (Bytes → Option (AddRequest × Bytes)) :=
  knownTwo (fun msg value => { msg with a := some value }) fun msg value => { msg with b := some value }

def parse (bs : Bytes) : Option AddRequest := parseMessage known {} bs

def serialize (msg : AddRequest) : Bytes :=
  Protobuf.serializeAsString (int32Field 1 msg.a ++ int32Field 2 msg.b)

def mergeImpl (msg from_ : AddRequest) : AddRequest where
  a := mergeInt32 msg.a from_.a
  b := mergeInt32 msg.b from_.b

end AddRequest

namespace AddResponse

def known : AddResponse → Nat → Option (Bytes → Option (AddResponse × Bytes)) :=
  knownOne fun msg value => { msg with sum := some value }

def parse (bs : Bytes) : Option AddResponse := parseMessage known {} bs

def serialize (msg : AddResponse) : Bytes := Protobuf.serializeAsString (int32Field 1 msg.sum)

def mergeImpl (msg from_ : AddResponse) : AddResponse where
  sum := mergeInt32 msg.sum from_.sum

end AddResponse

namespace SubRequest

def known : SubRequest → Nat → Option (Bytes → Option (SubRequest × Bytes)) :=
  knownTwo (fun msg value => { msg with a := some value }) fun msg value => { msg with b := some value }

def parse (bs : Bytes) : Option SubRequest := parseMessage known {} bs

def serialize (msg : SubRequest) : Bytes :=
  Protobuf.serializeAsString (int32Field 1 msg.a ++ int32Field 2 msg.b)

def mergeImpl (msg from_ : SubRequest) : SubRequest where
  a := mergeInt32 msg.a from_.a
  b := mergeInt32 msg.b from_.b

end SubRequest

namespace SubResponse

def known : SubResponse → Nat → Option (Bytes → Option (SubResponse × Bytes)) :=
  knownOne fun msg value => { msg with diff := some value }

def parse (bs : Bytes) : Option SubResponse := parseMessage known {} bs

def serialize (msg : SubResponse) : Bytes := Protobuf.serializeAsString (int32Field 1 msg.diff)

def mergeImpl (msg from_ : SubResponse) : SubResponse where
  diff := mergeInt32 msg.diff from_.diff

end SubResponse

section
variable [StreamingProtobuf] {M : Type}

theorem knownOne_takesFront {set : M → Int32 → M} (msg : M) (tag : Nat) (read : Bytes → Option (M × Bytes))
    (declared : knownOne set msg tag = some read) : TakesFront read := by
  unfold knownOne at declared
  split at declared
  · cases declared; exact StreamingProtobuf.readVarint32.into _
  · cases declared

theorem knownTwo_takesFront {setFirst setSecond : M → Int32 → M} (msg : M) (tag : Nat)
    (read : Bytes → Option (M × Bytes)) (declared : knownTwo setFirst setSecond msg tag = some read) :
    TakesFront read := by
  unfold knownTwo at declared
  split at declared
  · cases declared; exact StreamingProtobuf.readVarint32.into _
  · cases declared; exact StreamingProtobuf.readVarint32.into _
  · cases declared

end

variable [LawfulProtobuf]

theorem int32Field_length_le {number : Nat} (positive : 0 < number) (small : number < 16)
    (value : Option Int32) : (int32Field number value).length ≤ 11 := by
  cases value with
  | none => exact Nat.zero_le _
  | some value =>
    have bound := signExtend_lt value.toUInt32
    have short := @varint_length_le 9 9 (signExtend value.toUInt32) le_rfl (by omega)
    rw [int32Field, LawfulProtobuf.writeInt32_eq number _ positive small]
    exact Nat.succ_le_succ short

/-- A written field is read back. -/
theorem readInt32_written {M : Type} (value : Int32) (rest : Bytes) (set : Int32 → M) :
    readInt32 set (varint 9 (signExtend value.toUInt32) ++ rest) = some (set value, rest) := by
  rw [readInt32, readInto, LawfulProtobuf.readVarint32_varint _ _ (signExtend_lt _)]
  simp only [Option.map_some, ofNat_signExtend]
  rfl

/-- Enter a field that is there or not. -/
def enter {M : Type} (set : M → Int32 → M) (msg : M) : Option Int32 → M
  | none => msg
  | some value => set msg value

/-- A message is merged from a field that is there or not. -/
theorem parses_int32 {M : Type} {known : M → Nat → Option (Bytes → Option (M × Bytes))} {set : M → Int32 → M}
    {msg : M} {number : Nat} {value : Option Int32} {rest : Bytes} {out : Option M} (positive : 0 < number)
    (small : number < 16) (declared : known msg (8 * number) = some (readInt32 (set msg)))
    (parses : Parses known (enter set msg value) rest out) :
    Parses known msg (int32Field number value ++ rest) out := by
  cases value with
  | none => exact parses
  | some v =>
    rw [int32Field, LawfulProtobuf.writeInt32_eq number _ positive small, List.cons_append]
    exact .field (by omega) declared (readInt32_written v rest _) parses

theorem serializeAsString_short {wire : Bytes} (short : wire.length ≤ 22) :
    Protobuf.serializeAsString wire = wire :=
  LawfulProtobuf.serializeAsString_within wire (short.trans (by decide))

section
variable {M : Type} {set setFirst setSecond : M → Int32 → M}

theorem parses_one (mid : M) (value : Option Int32) :
    Parses (knownOne set) mid (Protobuf.serializeAsString (int32Field 1 value)) (some (enter set mid value)) := by
  have short := @int32Field_length_le _ _ 1 (by decide) (by decide) value
  have parses : Parses (knownOne set) mid (int32Field 1 value ++ []) (some (enter set mid value)) :=
    parses_int32 (by decide) (by decide) rfl (.done _)
  rw [serializeAsString_short (by omega)]
  rwa [List.append_nil] at parses

theorem parses_two (mid : M) (first second : Option Int32) :
    Parses (knownTwo setFirst setSecond) mid
      (Protobuf.serializeAsString (int32Field 1 first ++ int32Field 2 second))
      (some (enter setSecond (enter setFirst mid first) second)) := by
  have front := @int32Field_length_le _ _ 1 (by decide) (by decide) first
  have back := @int32Field_length_le _ _ 2 (by decide) (by decide) second
  have behind : Parses (knownTwo setFirst setSecond) (enter setFirst mid first) (int32Field 2 second ++ [])
      (some (enter setSecond (enter setFirst mid first) second)) :=
    parses_int32 (by decide) (by decide) rfl (.done _)
  have parses := @parses_int32 _ _ _ (knownTwo setFirst setSecond) setFirst mid 1 first _ _ (by decide) (by decide)
    rfl behind
  rw [serializeAsString_short (by rw [List.length_append]; omega)]
  rwa [List.append_nil] at parses

end

namespace AddRequest

theorem parses_serialize (mid msg : AddRequest) : Parses known mid msg.serialize (some (mid.mergeImpl msg)) := by
  have merged : mid.mergeImpl msg = enter (fun msg value => { msg with b := some value })
      (enter (fun msg value => { msg with a := some value }) mid msg.a) msg.b := by
    obtain ⟨_ | _, _ | _⟩ := msg <;> rfl
  rw [merged]
  exact parses_two mid msg.a msg.b

theorem parse_serialize (msg : AddRequest) : parse msg.serialize = some msg := by
  have cleared : AddRequest.mergeImpl {} msg = msg := by obtain ⟨_ | _, _ | _⟩ := msg <;> rfl
  exact (parses_serialize {} msg).result.trans (congrArg some cleared)

end AddRequest

namespace AddResponse

theorem parses_serialize (mid msg : AddResponse) : Parses known mid msg.serialize (some (mid.mergeImpl msg)) := by
  have merged : mid.mergeImpl msg = enter (fun msg value => { msg with sum := some value }) mid msg.sum := by
    obtain ⟨_ | _⟩ := msg <;> rfl
  rw [merged]
  exact parses_one mid msg.sum

theorem parse_serialize (msg : AddResponse) : parse msg.serialize = some msg := by
  have cleared : AddResponse.mergeImpl {} msg = msg := by obtain ⟨_ | _⟩ := msg <;> rfl
  exact (parses_serialize {} msg).result.trans (congrArg some cleared)

end AddResponse

theorem SubRequest.parses_serialize (mid msg : SubRequest) :
    Parses known mid msg.serialize (some (mid.mergeImpl msg)) := by
  have merged : mid.mergeImpl msg = enter (fun msg value => { msg with b := some value })
      (enter (fun msg value => { msg with a := some value }) mid msg.a) msg.b := by
    obtain ⟨_ | _, _ | _⟩ := msg <;> rfl
  rw [merged]
  exact parses_two mid msg.a msg.b

theorem SubResponse.parses_serialize (mid msg : SubResponse) :
    Parses known mid msg.serialize (some (mid.mergeImpl msg)) := by
  have merged : mid.mergeImpl msg = enter (fun msg value => { msg with diff := some value }) mid msg.diff := by
    obtain ⟨_ | _⟩ := msg <;> rfl
  rw [merged]
  exact parses_one mid msg.diff

end
end ReactorRpc.Math

namespace ReactorRpc
open Streams Math

/-- With a runtime that reads and writes the wire format, parsing a message with a serialised one behind
it is `MergeImpl`, for each of the messages. -/
theorem messages_merge [Protobuf] [LawfulProtobuf] [StreamingProtobuf] :
    MergesWritten RpcRequest.parse RpcRequest.Fits RpcRequest.serialize RpcRequest.mergeImpl ∧
      MergesWritten RpcResponse.parse RpcResponse.Fits RpcResponse.serialize RpcResponse.mergeImpl ∧
      MergesWritten AddRequest.parse (fun _ => True) AddRequest.serialize AddRequest.mergeImpl ∧
      MergesWritten AddResponse.parse (fun _ => True) AddResponse.serialize AddResponse.mergeImpl ∧
      MergesWritten SubRequest.parse (fun _ => True) SubRequest.serialize SubRequest.mergeImpl ∧
      MergesWritten SubResponse.parse (fun _ => True) SubResponse.serialize SubResponse.mergeImpl := by
  refine ⟨fun bs mid msg parsed fits => ?_, fun bs mid msg parsed fits => ?_, fun bs mid msg parsed _ => ?_,
    fun bs mid msg parsed _ => ?_, fun bs mid msg parsed _ => ?_, fun bs mid msg parsed _ => ?_⟩
  · rw [RpcRequest.serialize, LawfulProtobuf.serializeAsString_within _ (fits.short.trans (by decide))]
    exact (Parses.behind RpcRequest.known_takesFront parsed (RpcRequest.parses_internalSerialize fits mid)).result
  · rw [RpcResponse.serialize, LawfulProtobuf.serializeAsString_within _ (fits.short.trans (by decide))]
    exact (Parses.behind RpcResponse.known_takesFront parsed (RpcResponse.parses_internalSerialize fits mid)).result
  · exact (Parses.behind knownTwo_takesFront parsed (AddRequest.parses_serialize mid msg)).result
  · exact (Parses.behind knownOne_takesFront parsed (AddResponse.parses_serialize mid msg)).result
  · exact (Parses.behind knownTwo_takesFront parsed (SubRequest.parses_serialize mid msg)).result
  · exact (Parses.behind knownOne_takesFront parsed (SubResponse.parses_serialize mid msg)).result

open Protobuf.Sample

/-- A name given twice: the later one stays, with the arguments that come with it. -/
theorem messages_merge_twice :
    RpcRequest.parse ([10, 1, 97] ++ RpcRequest.serialize ⟨[98], [], [7]⟩) = some ⟨[98], [], [7]⟩ :=
  messages_merge.1 _ ⟨[97], [], []⟩ _ (by decide) ⟨by decide, by decide, by decide⟩

end ReactorRpc
