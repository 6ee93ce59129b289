import ReactorRpc.Library.Protobuf

namespace ReactorRpc
open Streams

/-- Enumeration values of proto3 are open: any 32-bit number can arrive. -/
abbrev ErrorCode := UInt32

namespace ErrorCode

def NO_ERROR : ErrorCode := 0
def WRONG_PROTO : ErrorCode := 1
def NO_SERVICE : ErrorCode := 2
def NO_METHOD : ErrorCode := 3
def INVALID_ARGUMENT : ErrorCode := 4
def INTERNAL_ERROR : ErrorCode := 5

end ErrorCode

structure RpcRequest where
  serviceName : Bytes := []
  methodName : Bytes := []
  args : Bytes := []
  deriving DecidableEq

structure RpcResponse where
  errorCode : ErrorCode := ErrorCode.NO_ERROR
  errorMsg : Bytes := []
  result : Bytes := []
  deriving DecidableEq

/-- A `string` or `bytes` field of a merged message: `from` where that is set. -/
def mergeBytes (own from_ : Bytes) : Bytes := if from_ ≠ [] then from_ else own

theorem mergeBytes_nil (own : Bytes) : mergeBytes own [] = own := if_neg (not_not.mpr rfl)

theorem mergeBytes_written (own : Bytes) {from_ : Bytes} (written : from_ ≠ []) :
    mergeBytes own from_ = from_ := if_pos written

theorem mergeBytes_cleared (from_ : Bytes) : mergeBytes [] from_ = from_ := by
  unfold mergeBytes
  split
  · rfl
  · rename_i empty
    exact (not_not.mp empty).symm

variable [Protobuf]

/-- A `string` or `bytes` field, left out when it is empty. -/
def optionalField (number : Nat) (bs : Bytes) : Bytes :=
  if bs = [] then [] else Protobuf.writeDelimited number bs

/-- A `string` field as the parser takes it: `InlineGreedyStringParser`, then `VerifyUTF8`. -/
def readString (bs : Bytes) : Option (Bytes × Bytes) :=
  (Protobuf.readDelimited bs).bind fun (s, rest) => if Protobuf.verifyUtf8 s then some (s, rest) else none

namespace RpcRequest

def known (msg : RpcRequest) : Nat → Option (Bytes → Option (RpcRequest × Bytes))
  | 10 => some (readInto readString fun s => { msg with serviceName := s })
  | 18 => some (readInto readString fun s => { msg with methodName := s })
  | 26 => some (readInto Protobuf.readDelimited fun s => { msg with args := s })
  | _ => none

def internalSerialize (msg : RpcRequest) : Bytes :=
  optionalField 1 msg.serviceName ++ optionalField 2 msg.methodName ++ optionalField 3 msg.args

def serialize (msg : RpcRequest) : Bytes := Protobuf.serializeAsString msg.internalSerialize

def parse (bs : Bytes) : Option RpcRequest := parseMessage known {} bs

def mergeImpl (msg from_ : RpcRequest) : RpcRequest where
  serviceName := mergeBytes msg.serviceName from_.serviceName
  methodName := mergeBytes msg.methodName from_.methodName
  args := mergeBytes msg.args from_.args

end RpcRequest

namespace RpcResponse

def known (msg : RpcResponse) : Nat → Option (Bytes → Option (RpcResponse × Bytes))
  | 8 => some (readInto Protobuf.readVarint64 fun val => { msg with errorCode := UInt32.ofNat val })
  | 18 => some (readInto readString fun s => { msg with errorMsg := s })
  | 26 => some (readInto Protobuf.readDelimited fun s => { msg with result := s })
  | _ => none

def internalSerialize (msg : RpcResponse) : Bytes :=
  (if msg.errorCode ≠ 0 then Protobuf.writeInt32 1 msg.errorCode else []) ++
    optionalField 2 msg.errorMsg ++ optionalField 3 msg.result

def serialize (msg : RpcResponse) : Bytes := Protobuf.serializeAsString msg.internalSerialize

def parse (bs : Bytes) : Option RpcResponse := parseMessage known {} bs

def mergeImpl (msg from_ : RpcResponse) : RpcResponse where
  errorCode := if from_.errorCode ≠ 0 then from_.errorCode else msg.errorCode
  errorMsg := mergeBytes msg.errorMsg from_.errorMsg
  result := mergeBytes msg.result from_.result

end RpcResponse

section
variable [StreamingProtobuf]

theorem readString_takesFront : TakesFront readString := by
  intro bs s rest found
  obtain ⟨⟨text, behind⟩, delimited, checked⟩ := Option.bind_eq_some_iff.mp found
  dsimp only at checked
  split at checked
  · rename_i valid
    cases checked
    obtain ⟨short, front⟩ := StreamingProtobuf.readDelimited bs s rest delimited
    refine ⟨short, fun more => ?_⟩
    rw [readString, front more]
    exact if_pos valid
  · cases checked

theorem RpcRequest.known_takesFront (msg : RpcRequest) (tag : Nat) (read : Bytes → Option (RpcRequest × Bytes))
    (declared : msg.known tag = some read) : TakesFront read := by
  unfold known at declared
  split at declared
  · cases declared; exact readString_takesFront.into _
  · cases declared; exact readString_takesFront.into _
  · cases declared; exact StreamingProtobuf.readDelimited.into _
  · cases declared

theorem RpcResponse.known_takesFront (msg : RpcResponse) (tag : Nat)
    (read : Bytes → Option (RpcResponse × Bytes)) (declared : msg.known tag = some read) : TakesFront read := by
  unfold known at declared
  split at declared
  · cases declared; exact StreamingProtobuf.readVarint64.into _
  · cases declared; exact readString_takesFront.into _
  · cases declared; exact StreamingProtobuf.readDelimited.into _
  · cases declared

end

variable [LawfulProtobuf]

theorem optionalField_length_le (number : Nat) (bs : Bytes) : bs.length ≤ (optionalField number bs).length := by
  unfold optionalField
  split
  · simp [*]
  · exact LawfulProtobuf.writeDelimited_length number bs

theorem readString_sized {s : Bytes} (fits : s.length ≤ maxDelimited) (rest : Bytes) :
    readString (varint 4 s.length ++ (s ++ rest)) = if validUtf8 s then some (s, rest) else none := by
  rw [readString, LawfulProtobuf.readDelimited_sized s rest fits]
  dsimp only [Option.bind_some]
  rw [LawfulProtobuf.verifyUtf8_eq]

/-- A message is merged from an optional field that the parser accepts. -/
theorem parses_optional {M : Type} {known : M → Nat → Option (Bytes → Option (M × Bytes))}
    {read : Bytes → Option (M × Bytes)} {msg next : M} {number : Nat} {bs rest : Bytes} {out : Option M}
    (positive : 0 < number) (small : number < 16) (declared : known msg (8 * number + 2) = some read)
    (fits : bs.length ≤ maxDelimited) (absent : bs = [] → next = msg)
    (reads : bs ≠ [] → read (varint 4 bs.length ++ (bs ++ rest)) = some (next, rest))
    (parses : Parses known next rest out) :
    Parses known msg (optionalField number bs ++ rest) out := by
  unfold optionalField
  split
  · rename_i empty
    rw [List.nil_append, ← absent empty]
    exact parses
  · rename_i written
    rw [LawfulProtobuf.writeDelimited_eq number bs positive small fits, List.cons_append]
    exact .field (by omega) declared (by rw [List.append_assoc]; exact reads written) parses

/-- Reading a written field gives the value back, whatever follows. -/
theorem read_written {M : Type} {s : Bytes} (fits : s.length ≤ maxDelimited) (rest : Bytes) (set : Bytes → M) :
    readInto Protobuf.readDelimited set (varint 4 s.length ++ (s ++ rest)) = some (set s, rest) := by
  rw [readInto, LawfulProtobuf.readDelimited_sized s rest fits]
  rfl

theorem read_valid {M : Type} {s : Bytes} (valid : validUtf8 s) (fits : s.length ≤ maxDelimited)
    (rest : Bytes) (set : Bytes → M) :
    readInto readString set (varint 4 s.length ++ (s ++ rest)) = some (set s, rest) := by
  rw [readInto, readString_sized fits, if_pos valid]
  rfl

namespace RpcRequest

/-- The messages that survive the wire. -/
structure Fits (msg : RpcRequest) : Prop where
  service : validUtf8 msg.serviceName
  method : validUtf8 msg.methodName
  short : msg.internalSerialize.length ≤ maxDelimited

/-- A request with valid names is merged from the wire. -/
theorem parses_internalSerialize {msg : RpcRequest} (fits : msg.Fits) (mid : RpcRequest) :
    Parses known mid msg.internalSerialize (some (mid.mergeImpl msg)) := by
  have short := fits.short
  have first := optionalField_length_le 1 msg.serviceName
  have second := optionalField_length_le 2 msg.methodName
  have third := optionalField_length_le 3 msg.args
  simp only [internalSerialize, List.length_append] at short
  have args : Parses known { mid.mergeImpl msg with args := mid.args } (optionalField 3 msg.args ++ [])
      (some (mid.mergeImpl msg)) := by
    refine parses_optional (by decide) (by decide) rfl (by omega) ?_ ?_ (.done _)
    · intro empty; rw [mergeImpl, empty, mergeBytes_nil]
    · intro written
      rw [mergeImpl, mergeBytes_written _ written]
      exact read_written (by omega) [] _
  have names : Parses known { mid with serviceName := mergeBytes mid.serviceName msg.serviceName }
      (optionalField 2 msg.methodName ++ (optionalField 3 msg.args ++ [])) (some (mid.mergeImpl msg)) := by
    refine parses_optional (by decide) (by decide) rfl (by omega) ?_ ?_ args
    · intro empty; rw [mergeImpl, empty, mergeBytes_nil]
    · intro written
      rw [mergeImpl, mergeBytes_written _ written]
      exact read_valid fits.method (by omega) _ _
  have all : Parses known mid (optionalField 1 msg.serviceName ++
      (optionalField 2 msg.methodName ++ (optionalField 3 msg.args ++ []))) (some (mid.mergeImpl msg)) := by
    refine parses_optional (by decide) (by decide) rfl (by omega) ?_ ?_ names
    · intro empty; rw [empty, mergeBytes_nil]
    · intro written
      rw [mergeBytes_written _ written]
      exact read_valid fits.service (by omega) _ _
  simpa only [internalSerialize, List.append_nil, List.append_assoc] using all

omit [Protobuf] [LawfulProtobuf] in
theorem mergeImpl_cleared (msg : RpcRequest) : RpcRequest.mergeImpl {} msg = msg := by
  simp only [mergeImpl, mergeBytes_cleared]

/-- A request with valid names survives the wire. -/
theorem parse_internalSerialize {msg : RpcRequest} (service : validUtf8 msg.serviceName)
    (method : validUtf8 msg.methodName) (fits : msg.internalSerialize.length ≤ maxDelimited) :
    parse msg.internalSerialize = some msg := by
  have merged := (parses_internalSerialize ⟨service, method, fits⟩ {}).result
  rwa [mergeImpl_cleared] at merged

end RpcRequest

namespace RpcResponse

structure Fits (msg : RpcResponse) : Prop where
  text : validUtf8 msg.errorMsg
  short : msg.internalSerialize.length ≤ maxDelimited

/-- The enumeration field is written unless it is zero, and always reads back. -/
theorem parses_errorCode {msg mid : RpcResponse} {rest : Bytes} {out : Option RpcResponse}
    (parses : Parses known { mid with errorCode := (mid.mergeImpl msg).errorCode } rest out) :
    Parses known mid ((if msg.errorCode ≠ 0 then Protobuf.writeInt32 1 msg.errorCode else []) ++
      rest) out := by
  have bound := signExtend_lt msg.errorCode
  split
  · rename_i set
    rw [mergeImpl, if_pos set] at parses
    rw [LawfulProtobuf.writeInt32_eq 1 _ (by decide) (by decide), List.cons_append]
    refine .field (by decide) rfl ?_ parses
    simp only [readInto, LawfulProtobuf.readVarint64_varint _ _ bound, Option.map_some, ofNat_signExtend]
  · rename_i zero
    rw [mergeImpl, if_neg zero] at parses
    exact parses

/-- A response with a valid error text is merged from the wire. -/
theorem parses_internalSerialize {msg : RpcResponse} (fits : msg.Fits) (mid : RpcResponse) :
    Parses known mid msg.internalSerialize (some (mid.mergeImpl msg)) := by
  have short := fits.short
  have second := optionalField_length_le 2 msg.errorMsg
  have third := optionalField_length_le 3 msg.result
  simp only [internalSerialize, List.length_append] at short
  have result : Parses known { mid.mergeImpl msg with result := mid.result } (optionalField 3 msg.result ++ [])
      (some (mid.mergeImpl msg)) := by
    refine parses_optional (by decide) (by decide) rfl (by omega) ?_ ?_ (.done _)
    · intro empty; rw [mergeImpl, empty, mergeBytes_nil]
    · intro written
      rw [mergeImpl, mergeBytes_written _ written]
      exact read_written (by omega) [] _
  have fields : Parses known { mid with errorCode := (mid.mergeImpl msg).errorCode }
      (optionalField 2 msg.errorMsg ++ (optionalField 3 msg.result ++ [])) (some (mid.mergeImpl msg)) := by
    refine parses_optional (by decide) (by decide) rfl (by omega) ?_ ?_ result
    · intro empty; rw [mergeImpl, empty, mergeBytes_nil]
    · intro written
      rw [mergeImpl, mergeBytes_written _ written]
      exact read_valid fits.text (by omega) _ _
  have all := parses_errorCode fields
  simpa only [internalSerialize, List.append_nil, List.append_assoc] using all

omit [Protobuf] [LawfulProtobuf] in
theorem mergeImpl_cleared (msg : RpcResponse) : RpcResponse.mergeImpl {} msg = msg := by
  have code : (if msg.errorCode ≠ 0 then msg.errorCode else ErrorCode.NO_ERROR) = msg.errorCode := by
    split
    · rfl
    · rename_i zero
      exact (not_not.mp zero).symm
  simp only [mergeImpl, mergeBytes_cleared, code]

/-- A response with a valid error text survives the wire. -/
theorem parse_internalSerialize {msg : RpcResponse} (text : validUtf8 msg.errorMsg)
    (fits : msg.internalSerialize.length ≤ maxDelimited) :
    parse msg.internalSerialize = some msg := by
  have merged := (parses_internalSerialize ⟨text, fits⟩ {}).result
  rwa [mergeImpl_cleared] at merged

/-- The serialiser writes an error text that is not valid UTF-8, and the
parser refuses the message. -/
theorem parse_invalid_text {msg : RpcResponse} (text : validUtf8 msg.errorMsg = false)
    (fits : msg.internalSerialize.length ≤ maxDelimited) : parse msg.internalSerialize = none := by
  have second := optionalField_length_le 2 msg.errorMsg
  simp only [internalSerialize, List.length_append] at fits
  have written : msg.errorMsg ≠ [] := by
    intro empty
    rw [empty] at text
    exact absurd text (by decide)
  have fields : Parses known { errorCode := (RpcResponse.mergeImpl {} msg).errorCode }
      (optionalField 2 msg.errorMsg ++ optionalField 3 msg.result) none := by
    rw [optionalField, if_neg written, LawfulProtobuf.writeDelimited_eq 2 _ (by decide) (by decide) (by omega),
      List.cons_append, List.append_assoc]
    refine .malformed (by decide) rfl ?_
    rw [readInto, readString_sized (by omega), if_neg (by simp [text])]
    rfl
  have all := @parses_errorCode _ _ msg {} _ _ fields
  simpa only [parse, internalSerialize, List.append_assoc] using all.result

end RpcResponse

end ReactorRpc
