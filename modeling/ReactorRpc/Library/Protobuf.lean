import ReactorRpc.Library.Bytes

namespace Streams

/-- The base-128 varint of a number, on at most `k + 1` bytes. -/
def varint : Nat → Nat → Bytes
  | 0, n => [UInt8.ofNat n]
  | k + 1, n =>
    if n < 128 then [UInt8.ofNat n] else UInt8.ofNat (n % 128 + 128) :: varint k (n / 128)

theorem varint_length (k n : Nat) : 0 < (varint k n).length := by
  cases k with
  | zero => simp [varint]
  | succ k =>
    unfold varint
    split <;> simp

theorem varint_length_le {j k n : Nat} (room : j ≤ k) (small : n < 128 ^ (j + 1)) :
    (varint k n).length ≤ j + 1 := by
  induction k generalizing j n with
  | zero => simp [varint]
  | succ k ih =>
    unfold varint
    split
    · simp
    · rename_i large
      cases j with
      | zero => omega
      | succ j =>
        have power : 128 ^ (j + 1 + 1) = 128 * 128 ^ (j + 1) := by ring
        have rest := ih (Nat.le_of_succ_le_succ room) (show n / 128 < 128 ^ (j + 1) by omega)
        simpa using rest

theorem varint_length_ge {j k n : Nat} (room : j ≤ k) (large : 128 ^ j ≤ n) :
    j + 1 ≤ (varint k n).length := by
  induction k generalizing j n with
  | zero =>
    have none : j = 0 := Nat.le_zero.mp room
    subst j
    exact varint_length 0 n
  | succ k ih =>
    cases j with
    | zero => exact varint_length (k + 1) n
    | succ j =>
      have power : 128 ^ (j + 1) = 128 * 128 ^ j := by ring
      have positive : 0 < 128 ^ j := Nat.pow_pos (by decide)
      have rest := ih (Nat.le_of_succ_le_succ room) (show 128 ^ j ≤ n / 128 by omega)
      rw [varint, if_neg (by omega), List.length_cons]
      omega

/-- A 32-bit number is written sign-extended to 64 bits. -/
def signExtend (v : UInt32) : Nat := if v.toNat < 2 ^ 31 then v.toNat else v.toNat + (2 ^ 64 - 2 ^ 32)

theorem signExtend_lt (v : UInt32) : signExtend v < 2 ^ 64 := by
  have bound := v.toNat_lt
  unfold signExtend
  split <;> omega

/-- Cutting the sign extension off again gives the number. -/
theorem ofNat_signExtend (v : UInt32) : UInt32.ofNat (signExtend v) = v := by
  have bound := v.toNat_lt
  apply UInt32.toNat_inj.mp
  rw [UInt32.toNat_ofNat', signExtend]
  split <;> omega

/-- The lead byte of a UTF-8 sequence gives the ranges of the bytes to follow. -/
def utf8Lead (b : UInt8) : Option (List (UInt8 × UInt8)) :=
  if b ≤ 0x7F then some []
  else if 0xC2 ≤ b ∧ b ≤ 0xDF then some [(0x80, 0xBF)]
  else if b = 0xE0 then some [(0xA0, 0xBF), (0x80, 0xBF)]
  else if b = 0xED then some [(0x80, 0x9F), (0x80, 0xBF)]
  else if 0xE1 ≤ b ∧ b ≤ 0xEF then some [(0x80, 0xBF), (0x80, 0xBF)]
  else if b = 0xF0 then some [(0x90, 0xBF), (0x80, 0xBF), (0x80, 0xBF)]
  else if 0xF1 ≤ b ∧ b ≤ 0xF3 then some [(0x80, 0xBF), (0x80, 0xBF), (0x80, 0xBF)]
  else if b = 0xF4 then some [(0x80, 0x8F), (0x80, 0xBF), (0x80, 0xBF)]
  else none

/-- UTF-8 with some bytes of a sequence still to come. -/
def utf8From : List (UInt8 × UInt8) → Bytes → Bool
  | [], [] => true
  | _ :: _, [] => false
  | [], b :: bs =>
    match utf8Lead b with
    | none => false
    | some expected => utf8From expected bs
  | (low, high) :: expected, b :: bs => low ≤ b && b ≤ high && utf8From expected bs

/-- The byte string is the UTF-8 form of a text. -/
def validUtf8 (bs : Bytes) : Bool := utf8From [] bs

theorem validUtf8_ascii_append {front : Bytes} (ascii : ∀ b ∈ front, b ≤ 0x7F) (bs : Bytes) :
    validUtf8 (front ++ bs) = validUtf8 bs := by
  induction front with
  | nil => rfl
  | cons b front ih =>
    have lead : utf8Lead b = some [] := if_pos (ascii b (List.mem_cons_self ..))
    have rest := ih fun c member => ascii c (List.mem_cons_of_mem b member)
    simpa only [validUtf8, List.cons_append, utf8From, lead] using rest

theorem tag_byte {tag : Nat} (single : tag < 128) : (UInt8.ofNat tag).toNat = tag := by
  rw [UInt8.toNat_ofNat']
  omega

/-- What generated code calls of a protobuf runtime. A reader gives what it has read and the rest of
its input, or fails. `skipField` skips the value behind a tag that the message does not declare, the
writers write a field with its number, and `serializeAsString` is given the fields of a message. -/
class Protobuf where
  readTag : Bytes → Option (Nat × Bytes)
  readVarint32 : Bytes → Option (UInt32 × Bytes)
  readVarint64 : Bytes → Option (Nat × Bytes)
  readDelimited : Bytes → Option (Bytes × Bytes)
  verifyUtf8 : Bytes → Bool
  skipField : Nat → Bytes → Option Bytes
  writeInt32 : Nat → UInt32 → Bytes
  writeDelimited : Nat → Bytes → Bytes
  serializeAsString : Bytes → Bytes

/-- The largest message: 2 GiB. -/
def maxMessage : Nat := 2 ^ 31 - 1

/-- No field of up to this size is too large. -/
def maxDelimited : Nat := 2 ^ 30

/-- What the wire format and the interface of the runtime promise: how fields with a tag of one byte are
written, that what is written is read, and that a message over the limit becomes the empty string. -/
class LawfulProtobuf [Protobuf] : Prop where
  writeInt32_eq : ∀ number v, 0 < number → number < 16 →
    Protobuf.writeInt32 number v = UInt8.ofNat (8 * number) :: varint 9 (signExtend v)
  writeDelimited_eq : ∀ number bs, 0 < number → number < 16 → bs.length ≤ maxDelimited →
    Protobuf.writeDelimited number bs = UInt8.ofNat (8 * number + 2) :: (varint 4 bs.length ++ bs)
  writeDelimited_length : ∀ number bs, bs.length ≤ (Protobuf.writeDelimited number bs).length
  readTag_byte : ∀ (b : UInt8) rest, b.toNat < 128 → Protobuf.readTag (b :: rest) = some (b.toNat, rest)
  readVarint32_varint : ∀ n rest, n < 2 ^ 64 →
    Protobuf.readVarint32 (varint 9 n ++ rest) = some (UInt32.ofNat n, rest)
  readVarint64_varint : ∀ n rest, n < 2 ^ 64 → Protobuf.readVarint64 (varint 9 n ++ rest) = some (n, rest)
  readDelimited_sized : ∀ bs rest, bs.length ≤ maxDelimited →
    Protobuf.readDelimited (varint 4 bs.length ++ (bs ++ rest)) = some (bs, rest)
  verifyUtf8_eq : ∀ bs, Protobuf.verifyUtf8 bs = validUtf8 bs
  serializeAsString_within : ∀ wire : Bytes, wire.length ≤ maxMessage → Protobuf.serializeAsString wire = wire
  serializeAsString_beyond : ∀ wire : Bytes, maxMessage < wire.length → Protobuf.serializeAsString wire = []

/-- A reader takes its bytes off the front of its input, whatever follows them. -/
def TakesFront {A : Type} (read : Bytes → Option (A × Bytes)) : Prop :=
  ∀ bs a rest, read bs = some (a, rest) →
    rest.length ≤ bs.length ∧ ∀ more, read (bs ++ more) = some (a, rest ++ more)

/-- The readers take their bytes off the front of their input, and a tag has at least one. -/
class StreamingProtobuf [Protobuf] : Prop where
  readTag : TakesFront Protobuf.readTag
  readTag_shrinks : ∀ bs tag rest, Protobuf.readTag bs = some (tag, rest) → rest.length < bs.length
  readVarint32 : TakesFront Protobuf.readVarint32
  readVarint64 : TakesFront Protobuf.readVarint64
  readDelimited : TakesFront Protobuf.readDelimited
  skipField : ∀ tag bs rest, Protobuf.skipField tag bs = some rest →
    rest.length ≤ bs.length ∧ ∀ more, Protobuf.skipField tag (bs ++ more) = some (rest ++ more)

/-- Read a value, and enter it into a message. -/
def readInto {A M : Type} (read : Bytes → Option (A × Bytes)) (set : A → M) (bs : Bytes) : Option (M × Bytes) :=
  (read bs).map fun (a, rest) => (set a, rest)

theorem TakesFront.into {A M : Type} {read : Bytes → Option (A × Bytes)} (front : TakesFront read)
    (set : A → M) : TakesFront (readInto read set) := by
  intro bs next rest found
  obtain ⟨⟨a, behind⟩, found, same⟩ := Option.map_eq_some_iff.mp found
  cases same
  obtain ⟨short, further⟩ := front bs a rest found
  exact ⟨short, fun more => by rw [readInto, further more]; rfl⟩

section
variable [Protobuf] {M : Type}

/-- The loop of a generated parser. `known` has the readers of the declared fields. -/
def parseLoop (known : M → Nat → Option (Bytes → Option (M × Bytes))) : Nat → M → Bytes → Option M
  | 0, _, _ => none
  | _ + 1, msg, [] => some msg
  | fuel + 1, msg, b :: bs =>
    match Protobuf.readTag (b :: bs) with
    | none => none
    | some (tag, rest) =>
      match known msg tag with
      | some read => (read rest).bind fun (next, rest) => parseLoop known fuel next rest
      | none =>
        if tag = 0 ∨ tag % 8 = 4 then none
        else (Protobuf.skipField tag rest).bind (parseLoop known fuel msg)

/-- The result of a generated parser on its whole input. -/
def parseMessage (known : M → Nat → Option (Bytes → Option (M × Bytes))) (msg : M) (bs : Bytes) : Option M :=
  parseLoop known (bs.length + 1) msg bs

/-- With any fuel beyond its length, `bs` parses to `out`. -/
def Parses (known : M → Nat → Option (Bytes → Option (M × Bytes))) (msg : M) (bs : Bytes) (out : Option M) : Prop :=
  ∀ fuel, bs.length < fuel → parseLoop known fuel msg bs = out

variable {known : M → Nat → Option (Bytes → Option (M × Bytes))}

theorem Parses.result {msg : M} {bs : Bytes} {out : Option M} (parses : Parses known msg bs out) :
    parseMessage known msg bs = out :=
  parses _ (Nat.lt_succ_self _)

theorem Parses.done (msg : M) : Parses known msg [] (some msg) := by
  intro fuel enough
  cases fuel with
  | zero => omega
  | succ fuel => rfl

variable [LawfulProtobuf] {read : Bytes → Option (M × Bytes)}

/-- A declared field is read, and the loop goes on behind it. -/
theorem Parses.field {msg next : M} {tag : Nat} {value rest : Bytes} {out : Option M} (single : tag < 128)
    (declared : known msg tag = some read) (reads : read (value ++ rest) = some (next, rest))
    (parses : Parses known next rest out) : Parses known msg (UInt8.ofNat tag :: (value ++ rest)) out := by
  intro fuel enough
  rw [List.length_cons, List.length_append] at enough
  have byte := tag_byte single
  cases fuel with
  | zero => omega
  | succ fuel =>
    rw [parseLoop, LawfulProtobuf.readTag_byte _ _ (by rwa [byte]), byte]
    simp only [declared, reads, Option.bind_some]
    exact parses fuel (by omega)

/-- A malformed declared field fails the whole message. -/
theorem Parses.malformed {msg : M} {tag : Nat} {bs : Bytes} (single : tag < 128)
    (declared : known msg tag = some read) (fails : read bs = none) :
    Parses known msg (UInt8.ofNat tag :: bs) none := by
  intro fuel enough
  have byte := tag_byte single
  cases fuel with
  | zero => omega
  | succ fuel =>
    rw [parseLoop, LawfulProtobuf.readTag_byte _ _ (by rwa [byte]), byte]
    simp only [declared, fails, Option.bind_none]

end

/-- What stands behind a message that parses is parsed into it. -/
theorem Parses.behind [Protobuf] [StreamingProtobuf] {M : Type}
    {known : M → Nat → Option (Bytes → Option (M × Bytes))}
    (front : ∀ msg tag read, known msg tag = some read → TakesFront read) {fuel : Nat} {msg mid : M}
    {bs more : Bytes} {out : Option M} (parsed : parseLoop known fuel msg bs = some mid)
    (parses : Parses known mid more out) : Parses known msg (bs ++ more) out := by
  induction fuel generalizing msg bs with
  | zero => cases parsed
  | succ fuel ih =>
    cases bs with
    | nil =>
      cases parsed
      exact parses
    | cons b bs =>
      intro room enough
      cases room with
      | zero => omega
      | succ room =>
        rw [parseLoop] at parsed
        rw [List.cons_append, List.length_cons, List.length_append] at enough
        cases tagged : Protobuf.readTag (b :: bs) with
        | none =>
          rw [tagged] at parsed
          cases parsed
        | some head =>
          obtain ⟨tag, rest⟩ := head
          have shrinks := StreamingProtobuf.readTag_shrinks _ _ _ tagged
          have further := (StreamingProtobuf.readTag _ _ _ tagged).2 more
          rw [List.length_cons] at shrinks
          rw [tagged] at parsed
          rw [List.cons_append] at further ⊢
          rw [parseLoop, further]
          dsimp only at parsed ⊢
          cases declared : known msg tag with
          | some read =>
            rw [declared] at parsed
            obtain ⟨⟨next, behind⟩, reads, parsed⟩ := Option.bind_eq_some_iff.mp parsed
            obtain ⟨short, same⟩ := front msg tag read declared rest next behind reads
            dsimp only at parsed ⊢
            rw [same more]
            exact ih parsed room (by rw [List.length_append]; omega)
          | none =>
            rw [declared] at parsed
            dsimp only at parsed ⊢
            split at parsed
            · cases parsed
            · rename_i unusual
              obtain ⟨behind, skipped, parsed⟩ := Option.bind_eq_some_iff.mp parsed
              obtain ⟨short, same⟩ := StreamingProtobuf.skipField tag rest behind skipped
              rw [if_neg unusual, same more]
              exact ih parsed room (by rw [List.length_append]; omega)

/-- A message written behind one that parses is merged into it. -/
def MergesWritten {M : Type} (parse : Bytes → Option M) (Fits : M → Prop) (serialize : M → Bytes)
    (merge : M → M → M) : Prop :=
  ∀ bs mid msg, parse bs = some mid → Fits msg → parse (bs ++ serialize msg) = some (merge mid msg)

namespace Protobuf.Sample

/-- Read a varint of at most `k` bytes; a longer or a cut one is refused. -/
def readVarint : Nat → Bytes → Option (Nat × Bytes)
  | 0, _ => none
  | _ + 1, [] => none
  | k + 1, b :: bs =>
    if b.toNat < 128 then some (b.toNat, bs)
    else (readVarint k bs).map fun (n, rest) => (b.toNat - 128 + 128 * n, rest)

def readDelimited (bs : Bytes) : Option (Bytes × Bytes) :=
  match readVarint 5 bs with
  | none => none
  | some (n, rest) => if n ≤ rest.length then some (rest.take n, rest.drop n) else none

/-- A runtime to run the model with: it has the fields of numbers and of byte strings, and skips none. -/
scoped instance runtime : Protobuf where
  readTag := readVarint 5
  readVarint32 := readInto (readVarint 10) UInt32.ofNat
  readVarint64 := readInto (readVarint 10) (· % 2 ^ 64)
  readDelimited := readDelimited
  verifyUtf8 := validUtf8
  skipField _ _ := none
  writeInt32 number v := UInt8.ofNat (8 * number) :: varint 9 (signExtend v)
  writeDelimited number bs := UInt8.ofNat (8 * number + 2) :: (varint 4 bs.length ++ bs)
  serializeAsString wire := if wire.length ≤ maxMessage then wire else []

/-- A varint is read back, whatever follows it. -/
theorem readVarint_varint (k n : Nat) (rest : Bytes) (fits : n < 128 ^ (k + 1)) :
    readVarint (k + 1) (varint k n ++ rest) = some (n, rest) := by
  induction k generalizing n with
  | zero =>
    have value : (UInt8.ofNat n).toNat = n := tag_byte (by omega)
    simp only [varint, List.singleton_append, readVarint, value, if_pos (show n < 128 by omega)]
  | succ k ih =>
    unfold varint
    split
    · rename_i small
      simp only [List.singleton_append, readVarint, tag_byte small, small, if_true]
    · rename_i large
      have value : (UInt8.ofNat (n % 128 + 128)).toNat = n % 128 + 128 := by
        rw [UInt8.toNat_ofNat']; omega
      have power : 128 ^ (k + 1 + 1) = 128 * 128 ^ (k + 1) := by ring
      have next := ih (n / 128) (by omega)
      rw [List.cons_append, readVarint, value, if_neg (by omega), next]
      simp only [Option.map_some, Nat.add_sub_cancel, Nat.mod_add_div]

theorem readVarint_takesFront (k : Nat) : TakesFront (readVarint k) := by
  induction k with
  | zero => intro bs n rest read; cases read
  | succ k ih =>
    intro bs n rest read
    cases bs with
    | nil => cases read
    | cons b bs =>
      rw [readVarint] at read
      split at read
      · rename_i last
        cases read
        exact ⟨Nat.le_succ _, fun more => by rw [List.cons_append, readVarint, if_pos last]⟩
      · rename_i goes
        obtain ⟨⟨m, behind⟩, later, same⟩ := Option.map_eq_some_iff.mp read
        cases same
        obtain ⟨short, front⟩ := ih bs m rest later
        exact ⟨short.trans (Nat.le_succ _), fun more => by
          rw [List.cons_append, readVarint, if_neg goes, front more]; rfl⟩

theorem readVarint_shrinks {k n : Nat} {bs rest : Bytes} (read : readVarint k bs = some (n, rest)) :
    rest.length < bs.length := by
  cases k with
  | zero => cases read
  | succ k =>
    cases bs with
    | nil => cases read
    | cons b bs =>
      rw [readVarint] at read
      split at read
      · cases read
        exact Nat.lt_succ_self _
      · obtain ⟨⟨m, behind⟩, later, same⟩ := Option.map_eq_some_iff.mp read
        cases same
        exact Nat.lt_succ_of_le (readVarint_takesFront k bs m rest later).1

theorem readDelimited_sized {bs : Bytes} (fits : bs.length ≤ maxDelimited) (rest : Bytes) :
    readDelimited (varint 4 bs.length ++ (bs ++ rest)) = some (bs, rest) := by
  have small : bs.length < 128 ^ (4 + 1) := by
    simp only [maxDelimited] at fits
    omega
  have within : bs.length ≤ (bs ++ rest).length := by rw [List.length_append]; omega
  rw [readDelimited, readVarint_varint 4 _ _ small]
  simp only [within, if_true, List.take_left, List.drop_left]

theorem readDelimited_takesFront : TakesFront readDelimited := by
  intro bs value rest read
  unfold readDelimited at read
  cases sized : readVarint 5 bs with
  | none => simp [sized] at read
  | some head =>
    obtain ⟨n, behind⟩ := head
    obtain ⟨short, front⟩ := readVarint_takesFront 5 bs n behind sized
    simp only [sized] at read
    split at read
    · rename_i within
      cases read
      refine ⟨(List.length_drop ▸ Nat.sub_le ..).trans short, fun more => ?_⟩
      have still : n ≤ (behind ++ more).length := by rw [List.length_append]; omega
      simp only [readDelimited, front more, still, if_true, List.take_append_of_le_length within,
        List.drop_append_of_le_length within]
    · cases read

scoped instance : LawfulProtobuf where
  writeInt32_eq _ _ _ _ := rfl
  writeDelimited_eq _ _ _ _ _ := rfl
  writeDelimited_length _ bs := by
    simp only [writeDelimited, List.length_cons, List.length_append]
    omega
  readTag_byte b rest single := by simp only [readTag, readVarint, single, if_true]
  readVarint32_varint n rest small := by
    simp only [readVarint32, readInto, readVarint_varint 9 n rest (by omega), Option.map_some]
  readVarint64_varint n rest small := by
    have whole : n % 2 ^ 64 = n := Nat.mod_eq_of_lt small
    simp only [readVarint64, readInto, readVarint_varint 9 n rest (by omega), Option.map_some, whole]
  readDelimited_sized bs rest fits := readDelimited_sized fits rest
  verifyUtf8_eq _ := rfl
  serializeAsString_within _ within := if_pos within
  serializeAsString_beyond _ beyond := if_neg (Nat.not_le.mpr beyond)

scoped instance : StreamingProtobuf where
  readTag := readVarint_takesFront 5
  readTag_shrinks _ _ _ read := readVarint_shrinks read
  readVarint32 := (readVarint_takesFront 10).into _
  readVarint64 := (readVarint_takesFront 10).into _
  readDelimited := readDelimited_takesFront
  skipField _ _ _ read := by cases read

end Protobuf.Sample
end Streams
