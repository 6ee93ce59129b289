import ReactorRpc.Http

namespace ReactorRpc.Http
open Streams

theorem isHex_hexDigit {n : Nat} (small : n < 16) : isHex (hexDigit n) = some n := by
  have all : ∀ n < 16, isHex (hexDigit n) = some n := by decide
  exact all n small

/-- A byte that is escaped comes as a percent sign and two digits, any other as itself. -/
theorem encodeByte_escaped {c : UInt8} (escaped : Escaped c) :
    encodeByte c = [percent, hexDigit (c.toNat / 16), hexDigit (c.toNat % 16)] := if_pos escaped

theorem encodeByte_plain {c : UInt8} (plain : ¬Escaped c) : encodeByte c = [c] := if_neg plain

theorem fromHexToI_escape (c : UInt8) (rest : Bytes) :
    fromHexToI 0 2 (hexDigit (c.toNat / 16) :: hexDigit (c.toNat % 16) :: rest) = some c.toNat := by
  have bound := c.toNat_lt
  simp only [fromHexToI, isHex_hexDigit (show c.toNat / 16 < 16 by omega),
    isHex_hexDigit (show c.toNat % 16 < 16 by omega)]
  congr 1
  omega

theorem isHex_percent : isHex percent = none := rfl

theorem not_escaped_of_isHex {c : UInt8} {v : Nat} (digit : isHex c = some v) : ¬Escaped c := by
  intro escaped
  rcases escaped with listed | large
  · have none : ∀ c ∈ asciiText " +\r\n',;", isHex c = none := by simp [asciiText, isHex]
    rw [none c listed] at digit
    cases digit
  · have above : 128 ≤ c.toNat := UInt8.le_iff_toNat_le.mp large
    unfold isHex at digit
    simp only [UInt8.le_iff_toNat_le, UInt8.reduceToNat] at digit
    rw [if_neg (by omega), if_neg (by omega), if_neg (by omega)] at digit
    cases digit

theorem hexDigit_ne {c : UInt8} (other : isHex c = none) {n : Nat} (small : n < 16) : hexDigit n ≠ c := by
  intro same
  rw [← same, isHex_hexDigit small] at other
  cases other

/-- Digits are read off an encoded string as off the string itself. -/
theorem fromHexToI_encode (val cnt : Nat) (t : Bytes) :
    fromHexToI val cnt (t.flatMap encodeByte) = fromHexToI val cnt t := by
  induction cnt generalizing val t with
  | zero => rfl
  | succ cnt ih =>
    cases t with
    | nil => rfl
    | cons c t =>
      by_cases escaped : Escaped c
      · have other : isHex c = none := by
          cases digit : isHex c with
          | none => rfl
          | some v => exact absurd escaped (not_escaped_of_isHex digit)
        simp only [List.flatMap_cons, encodeByte_escaped escaped, List.cons_append, fromHexToI,
          isHex_percent, other]
      · simp only [List.flatMap_cons, encodeByte_plain escaped, List.cons_append, List.nil_append, fromHexToI]
        cases isHex c with
        | none => rfl
        | some v => exact ih _ t

/-- The bytes that digits were read off stand for themselves. -/
theorem plain_of_fromHexToI {val cnt v : Nat} {t : Bytes} (read : fromHexToI val cnt t = some v) :
    ∀ c ∈ t.take cnt, ¬Escaped c := by
  induction cnt generalizing val t with
  | zero => simp
  | succ cnt ih =>
    cases t with
    | nil => simp
    | cons c t =>
      unfold fromHexToI at read
      cases digit : isHex c with
      | none => simp [digit] at read
      | some d =>
        rw [digit] at read
        intro x member
        rcases List.mem_cons.mp member with rfl | later
        · exact not_escaped_of_isHex digit
        · exact ih read x later

theorem encodeByte_ne_nil (c : UInt8) : encodeByte c ≠ [] := by
  unfold encodeByte
  split <;> exact List.cons_ne_nil _ _

theorem encode_eq_nil_iff {t : Bytes} : t.flatMap encodeByte = [] ↔ t = [] := by
  cases t with
  | nil => exact iff_of_true rfl rfl
  | cons c t => simp [encodeByte_ne_nil]

theorem encode_head_letterU {t : Bytes} :
    (t.flatMap encodeByte).head? = some letterU ↔ t.head? = some letterU := by
  cases t with
  | nil => rfl
  | cons c t =>
    by_cases escaped : Escaped c
    · rw [List.flatMap_cons, encodeByte_escaped escaped]
      constructor
      · intro head
        cases Option.some.inj head
      · intro head
        rw [Option.some.inj head] at escaped
        exact absurd escaped (by decide)
    · rw [List.flatMap_cons, encodeByte_plain escaped]
      rfl

theorem encode_tail {t : Bytes} (head : t.head? = some letterU) :
    (t.flatMap encodeByte).tail = t.tail.flatMap encodeByte := by
  cases t with
  | nil => rfl
  | cons c t =>
    cases Option.some.inj head
    rfl

theorem plain_of_unicode {t : Bytes} {v : Nat} (head : t.head? = some letterU)
    (read : fromHexToI 0 4 t.tail = some v) : ∀ c ∈ t.take 5, ¬Escaped c := by
  cases t with
  | nil => simp
  | cons c t =>
    cases Option.some.inj head
    intro x member
    rcases List.mem_cons.mp member with rfl | later
    · decide
    · exact plain_of_fromHexToI read x later

/-- An encoded string is decoded as the string itself with its plus signs kept:
the escapes that the encoder adds do not mix with those that are in the string. -/
theorem decodeUrl_encode (skip : Nat) {t : Bytes} (used : ∀ c ∈ t.take skip, ¬Escaped c) :
    decodeUrl true skip (t.flatMap encodeByte) = decodeUrl false skip t := by
  induction t generalizing skip with
  | nil =>
    cases skip
    · rfl
    · rfl
  | cons c t ih =>
    cases skip with
    | succ skip =>
      have plain := used c List.mem_cons_self
      rw [List.flatMap_cons, encodeByte_plain plain]
      exact ih skip fun x member => used x (List.mem_cons_of_mem _ member)
    | zero =>
      have start := ih 0 (by simp)
      by_cases escaped : Escaped c
      · have notPercent : c ≠ percent := by
          rintro rfl
          exact absurd escaped (by decide)
        have notU : hexDigit (c.toNat / 16) ≠ letterU :=
          hexDigit_ne rfl (by have bound := c.toNat_lt; omega)
        rw [List.flatMap_cons, encodeByte_escaped escaped]
        simp only [List.cons_append, List.nil_append, decodeUrl, fromHexToI_escape, start, notPercent,
          List.head?_cons, Option.some.injEq, notU, UInt8.ofNat_toNat, Bool.false_eq_true, ne_eq,
          reduceCtorEq, not_false_eq_true, and_self, if_true, if_false, false_and]
      · have notPlus : c ≠ plus := by
          rintro rfl
          exact escaped (by decide)
        rw [List.flatMap_cons, encodeByte_plain escaped]
        simp only [List.cons_append, List.nil_append, decodeUrl, notPlus, and_false, if_false,
          Bool.false_eq_true, start, ne_eq, encode_eq_nil_iff, encode_head_letterU,
          fromHexToI_encode]
        split
        · split
          · rename_i head
            rw [encode_tail head, fromHexToI_encode]
            split
            · rename_i val read
              rw [ih 5 (plain_of_unicode head read)]
            · rfl
          · split
            · rename_i val read
              rw [ih 2 (plain_of_fromHexToI read)]
            · rfl
        · rfl

/-- What the decoder takes for an escape at the front of a string. -/
def StartsEscape (s : Bytes) : Prop :=
  s.head? = some percent ∧
    (s.tail.head? = some letterU ∧ (fromHexToI 0 4 s.tail.tail).isSome ∨ (fromHexToI 0 2 s.tail).isSome)

theorem toUtf8_length (code : Nat) : (toUtf8 code).length ≤ 3 := by
  unfold toUtf8
  split
  · simp
  split
  · simp
  split
  · simp
  · simp

theorem fromHexToI_long {val cnt v : Nat} {t : Bytes} (read : fromHexToI val cnt t = some v) :
    cnt ≤ t.length := by
  induction cnt generalizing val t with
  | zero => exact Nat.zero_le _
  | succ cnt ih =>
    cases t with
    | nil => cases read
    | cons c t =>
      unfold fromHexToI at read
      cases digit : isHex c with
      | none => simp [digit] at read
      | some d =>
        rw [digit] at read
        exact Nat.succ_le_succ (ih read)

/-- Decoding never makes a string longer. -/
theorem decodeUrl_length (skip : Nat) (s : Bytes) :
    (decodeUrl false skip s).length ≤ s.length - skip := by
  induction s generalizing skip with
  | nil =>
    cases skip
    · exact Nat.zero_le _
    · exact Nat.zero_le _
  | cons c s ih =>
    cases skip with
    | succ skip =>
      have later := ih skip
      rw [List.length_cons, Nat.add_sub_add_right]
      exact later
    | zero =>
      have next := ih 0
      have copied : (c :: decodeUrl false 0 s).length ≤ (c :: s).length - 0 := Nat.succ_le_succ next
      unfold decodeUrl
      split
      · split
        · rename_i head
          split
          · rename_i val read
            have long := fromHexToI_long read
            have later := ih 5
            have short := toUtf8_length val
            rw [List.length_tail] at long
            rw [List.length_append, List.length_cons]
            omega
          · exact copied
        · split
          · rename_i val read
            have long := fromHexToI_long read
            have later := ih 2
            rw [List.length_cons, List.length_cons]
            omega
          · exact copied
      · rw [if_neg (by simp)]
        exact copied

theorem decodeUrl_plain {c : UInt8} {s : Bytes} (plain : ¬StartsEscape (c :: s)) :
    decodeUrl false 0 (c :: s) = c :: decodeUrl false 0 s := by
  have copied : (if (false = true) ∧ c = plus then space :: decodeUrl false 0 s
      else c :: decodeUrl false 0 s) = c :: decodeUrl false 0 s := if_neg (by simp)
  rw [decodeUrl]
  split
  · rename_i sign
    split
    · rename_i head
      split
      · rename_i val read
        exact absurd ⟨congrArg some sign.1, .inl ⟨head, by rw [List.tail_cons, read]; rfl⟩⟩ plain
      · rfl
    · split
      · rename_i val read
        exact absurd ⟨congrArg some sign.1, .inr (by rw [List.tail_cons, read]; rfl)⟩ plain
      · rfl
  · exact copied

/-- An escape takes up more bytes than it stands for. -/
theorem decodeUrl_escape {s : Bytes} (escape : StartsEscape s) :
    (decodeUrl false 0 s).length < s.length := by
  obtain ⟨sign, digits⟩ := escape
  cases s with
  | nil => cases sign
  | cons c s =>
    cases Option.some.inj sign
    rw [List.tail_cons] at digits
    have some : s ≠ [] := by
      rintro rfl
      exact digits.elim (fun four => by cases four.1) (fun two => by cases two)
    unfold decodeUrl
    rw [if_pos ⟨rfl, some⟩]
    by_cases head : s.head? = Option.some letterU
    · have four : (fromHexToI 0 4 s.tail).isSome := by
        rcases digits with ⟨_, four⟩ | two
        · exact four
        · cases s with
          | nil => cases head
          | cons u s =>
            cases Option.some.inj head
            cases two
      obtain ⟨val, read⟩ := Option.isSome_iff_exists.mp four
      have long := fromHexToI_long read
      have short := toUtf8_length val
      have later := decodeUrl_length 5 s
      rw [List.length_tail] at long
      rw [if_pos head, read, List.length_append, List.length_cons]
      omega
    · obtain ⟨val, read⟩ := Option.isSome_iff_exists.mp (digits.resolve_left fun four => head four.1)
      have long := fromHexToI_long read
      have later := decodeUrl_length 2 s
      rw [if_neg head, read, List.length_cons, List.length_cons]
      omega

/-- The strings that decoding leaves alone are those without an escape. -/
theorem decodeUrl_eq_self_iff {s : Bytes} :
    decodeUrl false 0 s = s ↔ ∀ t, t <:+ s → ¬StartsEscape t := by
  induction s with
  | nil =>
    refine iff_of_true rfl fun t suffix escape => ?_
    rw [List.suffix_nil.mp suffix] at escape
    cases escape.1
  | cons c s ih =>
    by_cases escape : StartsEscape (c :: s)
    · refine iff_of_false (fun same => ?_) (fun none => none _ List.suffix_rfl escape)
      have shorter := decodeUrl_escape escape
      rw [same] at shorter
      exact lt_irrefl _ shorter
    · rw [decodeUrl_plain escape, List.cons.injEq, ih]
      constructor
      · rintro ⟨_, none⟩ t suffix
        rcases List.suffix_cons_iff.mp suffix with rfl | later
        · exact escape
        · exact none t later
      · exact fun none => ⟨rfl, fun t later => none t (later.trans (List.suffix_cons c s))⟩

end ReactorRpc.Http
