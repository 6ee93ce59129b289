import Mathlib.Data.List.Infix
import ReactorRpc.UrlCoding

namespace ReactorRpc.Http
open Streams

/-- A byte that the encoder puts out for itself only. -/
structure Separator (d : UInt8) : Prop where
  plain : ¬Escaped d
  not_percent : percent ≠ d
  not_digit : isHex d = none

theorem Separator.apart {d c : UInt8} (sep : Separator d) (other : c ≠ d) : d ∉ encodeByte c := by
  have bound := c.toNat_lt
  unfold encodeByte
  split
  · simp only [List.mem_cons, List.not_mem_nil, or_false, not_or]
    exact ⟨sep.not_percent.symm, (hexDigit_ne sep.not_digit (by omega)).symm,
      (hexDigit_ne sep.not_digit (by omega)).symm⟩
  · simpa using other.symm

theorem Separator.mem_encode {d : UInt8} (sep : Separator d) {t : Bytes} :
    d ∈ t.flatMap encodeByte ↔ d ∈ t := by
  rw [List.mem_flatMap]
  constructor
  · rintro ⟨c, member, inside⟩
    by_contra none
    exact sep.apart (fun same => none (same ▸ member)) inside
  · exact fun member => ⟨d, member, by rw [encodeByte_plain sep.plain]; exact List.mem_singleton_self d⟩

theorem splitOn_append {d : UInt8} {front : Bytes} (none : d ∉ front) (s : Bytes) :
    (front ++ s).splitOn d = (s.splitOn d).modifyHead (front ++ ·) := by
  induction front with
  | nil =>
    rw [List.nil_append]
    cases s.splitOn d <;> rfl
  | cons c front ih =>
    have apart := not_or.mp (fun either => none (List.mem_cons.mpr either))
    rw [List.cons_append, List.splitOn_cons_eq_if_modifyHead, if_neg (by simpa using Ne.symm apart.1),
      ih apart.2]
    cases s.splitOn d <;> rfl

/-- An encoded string is split where the string itself is. -/
theorem Separator.splitOn_encode {d : UInt8} (sep : Separator d) (t : Bytes) :
    (t.flatMap encodeByte).splitOn d = (t.splitOn d).map fun part => part.flatMap encodeByte := by
  induction t with
  | nil => rfl
  | cons c t ih =>
    rw [List.flatMap_cons, List.splitOn_cons_eq_if_modifyHead]
    by_cases same : c = d
    · subst c
      rw [encodeByte_plain sep.plain, List.singleton_append, List.splitOn_cons_eq_if_modifyHead, ih]
      simp
    · rw [splitOn_append (sep.apart same), ih, if_neg (by simpa using same)]
      cases t.splitOn d <;> rfl

theorem Separator.takeWhile_encode {d : UInt8} (sep : Separator d) (t : Bytes) :
    (t.flatMap encodeByte).takeWhile (· ≠ d) = (t.takeWhile (· ≠ d)).flatMap encodeByte := by
  induction t with
  | nil => rfl
  | cons c t ih =>
    by_cases same : c = d
    · subst c
      rw [List.flatMap_cons, encodeByte_plain sep.plain]
      simp
    · have apart : ∀ x ∈ encodeByte c, decide (x ≠ d) = true := by
        intro x member
        exact decide_eq_true fun same' => sep.apart same (same' ▸ member)
      rw [List.flatMap_cons, List.takeWhile_append_of_pos apart, ih,
        List.takeWhile_cons_of_pos (by simpa using same), List.flatMap_cons]

def isTab (c : UInt8) : Bool := c = tab

/-- An encoded byte starts and ends with a byte that is not blank, unless it is a tab. -/
theorem encodeByte_ends {c : UInt8} (other : c ≠ tab) :
    (∃ x xs, encodeByte c = x :: xs ∧ isSpaceOrTab x = false) ∧
      ∃ xs x, encodeByte c = xs ++ [x] ∧ isSpaceOrTab x = false := by
  have bound := c.toNat_lt
  by_cases escaped : Escaped c
  · have last : isSpaceOrTab (hexDigit (c.toNat % 16)) = false := by
      have all : ∀ n < 16, isSpaceOrTab (hexDigit n) = false := by decide
      exact all _ (by omega)
    rw [encodeByte_escaped escaped]
    exact ⟨⟨_, _, rfl, rfl⟩, [percent, hexDigit (c.toNat / 16)], _, rfl, last⟩
  · have notSpace : c ≠ space := by
      rintro rfl
      exact escaped (by decide)
    have plain : isSpaceOrTab c = false := decide_eq_false (not_or.mpr ⟨notSpace, other⟩)
    rw [encodeByte_plain escaped]
    exact ⟨⟨c, [], rfl, plain⟩, [], c, rfl, plain⟩

theorem dropWhile_encode (t : Bytes) :
    (t.flatMap encodeByte).dropWhile isSpaceOrTab = (t.dropWhile isTab).flatMap encodeByte := by
  induction t with
  | nil => rfl
  | cons c t ih =>
    by_cases same : c = tab
    · subst c
      exact ih
    · obtain ⟨x, xs, encoded, plain⟩ := (encodeByte_ends same).1
      have kept : isTab c = false := decide_eq_false same
      rw [List.dropWhile_cons_of_neg (by simp [kept]), List.flatMap_cons, encoded, List.cons_append,
        List.dropWhile_cons_of_neg (by simp [plain])]

theorem rdropWhile_encode (t : Bytes) :
    (t.flatMap encodeByte).rdropWhile isSpaceOrTab = (t.rdropWhile isTab).flatMap encodeByte := by
  induction t using List.reverseRecOn with
  | nil => rfl
  | append_singleton t c ih =>
    rw [List.flatMap_append, List.flatMap_cons, List.flatMap_nil, List.append_nil]
    by_cases same : c = tab
    · subst c
      rw [List.rdropWhile_concat_pos _ _ _ (show isTab tab = true from rfl), ← ih]
      exact List.rdropWhile_concat_pos isSpaceOrTab _ tab rfl
    · obtain ⟨xs, x, encoded, plain⟩ := (encodeByte_ends same).2
      have kept : isTab c = false := decide_eq_false same
      rw [List.rdropWhile_concat_neg _ _ _ (by simp [kept]), List.flatMap_append, List.flatMap_cons,
        List.flatMap_nil, List.append_nil, encoded, ← List.append_assoc]
      exact List.rdropWhile_concat_neg isSpaceOrTab _ x (by simp [plain])

theorem trimBy_encode (t : Bytes) :
    trimBy isSpaceOrTab (t.flatMap encodeByte) = (trimBy isTab t).flatMap encodeByte := by
  rw [trimBy, dropWhile_encode, rdropWhile_encode, trimBy]

/-- The parts of an encoded string are the parts of the string, encoded; of the
blanks only tabs are left to trim. -/
theorem Separator.split_encode {d : UInt8} (sep : Separator d) (t : Bytes) :
    split d (t.flatMap encodeByte) = (splitBy isTab d t).map fun part => part.flatMap encodeByte := by
  have trimmed : trimBy isSpaceOrTab ∘ (fun part => part.flatMap encodeByte) =
      (fun part => part.flatMap encodeByte) ∘ trimBy isTab := funext trimBy_encode
  have kept : (fun part : Bytes => decide (part ≠ [])) ∘ (fun part => part.flatMap encodeByte) =
      fun part => decide (part ≠ []) := by
    funext part
    exact decide_eq_decide.mpr (not_congr encode_eq_nil_iff)
  rw [split, splitBy, sep.splitOn_encode, List.map_map, trimmed, ← List.map_map, List.filter_map, kept, splitBy]

variable {blank : UInt8 → Bool} {d : UInt8}

theorem trimBy_inside (s : Bytes) : trimBy blank s <:+: s :=
  (List.rdropWhile_prefix _ _).isInfix.trans (List.dropWhile_suffix _).isInfix

/-- A part is a stretch of the string without the separator. -/
theorem splitOn_parts (d : UInt8) (s : Bytes) :
    ∃ part parts, s.splitOn d = part :: parts ∧ (part <+: s ∧ d ∉ part) ∧
      ∀ other ∈ parts, other <:+: s ∧ d ∉ other := by
  induction s with
  | nil => exact ⟨[], [], rfl, ⟨List.prefix_rfl, List.not_mem_nil⟩, by simp⟩
  | cons c s ih =>
    obtain ⟨part, parts, same, ⟨front, none⟩, others⟩ := ih
    have behind : ∀ other, other <:+: s → other <:+: c :: s :=
      fun other inside => inside.trans (List.suffix_cons c s).isInfix
    rw [List.splitOn_cons_eq_if_modifyHead, same]
    by_cases here : c = d
    · refine ⟨[], part :: parts, if_pos (by simpa using here), ⟨List.nil_prefix, List.not_mem_nil⟩, ?_⟩
      intro other member
      rcases List.mem_cons.mp member with rfl | later
      · exact ⟨behind _ front.isInfix, none⟩
      · exact ⟨behind _ (others other later).1, (others other later).2⟩
    · refine ⟨c :: part, parts, if_neg (by simpa using here), ⟨?_, ?_⟩, ?_⟩
      · exact List.cons_prefix_cons.mpr ⟨rfl, front⟩
      · exact fun member => (List.mem_cons.mp member).elim (fun same => here same.symm) none
      · exact fun other member => ⟨behind _ (others other member).1, (others other member).2⟩

theorem mem_splitBy {s part : Bytes} (member : part ∈ splitBy blank d s) :
    part ≠ [] ∧ ∃ raw, part = trimBy blank raw ∧ raw <:+: s ∧ d ∉ raw := by
  obtain ⟨inside, some⟩ := List.mem_filter.mp member
  obtain ⟨raw, part_of, rfl⟩ := List.mem_map.mp inside
  obtain ⟨first, rest, same, ⟨front, none⟩, others⟩ := splitOn_parts d s
  refine ⟨of_decide_eq_true some, raw, rfl, ?_⟩
  rw [same] at part_of
  rcases List.mem_cons.mp part_of with rfl | later
  · exact ⟨front.isInfix, none⟩
  · exact others raw later

theorem splitBy_cons {front : Bytes} (none : d ∉ front) (some : trimBy blank front ≠ []) (s : Bytes) :
    splitBy blank d (front ++ d :: s) = trimBy blank front :: splitBy blank d s := by
  rw [splitBy, List.splitOn_append_cons_self_of_not_mem none, List.map_cons,
    List.filter_cons_of_pos (by simpa using some), splitBy]

theorem splitBy_whole {s : Bytes} (none : d ∉ s) (some : trimBy blank s ≠ []) :
    splitBy blank d s = [trimBy blank s] := by
  rw [splitBy, List.splitOn_eq_singleton none, List.map_singleton,
    List.filter_cons_of_pos (by simpa using some), List.filter_nil]

/-- Behind a front that is not blank at its ends only the end is trimmed. -/
theorem trimBy_append {front : Bytes} (some : front ≠ []) (starts : front.dropWhile blank = front)
    (ends : front.rdropWhile blank = front) (s : Bytes) :
    trimBy blank (front ++ s) = front ++ s.rdropWhile blank := by
  rw [trimBy, List.dropWhile_append, starts, if_neg (by simpa using some)]
  induction s using List.reverseRecOn with
  | nil => rw [List.rdropWhile_nil, List.append_nil, ends]
  | append_singleton s c ih =>
    rw [← List.append_assoc]
    by_cases bare : blank c = true
    · rw [List.rdropWhile_concat_pos _ _ _ bare, List.rdropWhile_concat_pos _ _ _ bare, ih]
    · rw [List.rdropWhile_concat_neg _ _ _ bare, List.rdropWhile_concat_neg _ _ _ bare,
        List.append_assoc]

theorem separator_zero : Separator 0 := ⟨by decide, by decide, rfl⟩

theorem separator_hash : Separator hash := ⟨by decide, by decide, rfl⟩

theorem separator_ampersand : Separator ampersand := ⟨by decide, by decide, rfl⟩

theorem separator_equals : Separator equals := ⟨by decide, by decide, rfl⟩

theorem separator_question : Separator question := ⟨by decide, by decide, rfl⟩

/-- A byte that is escaped does not occur in an encoded string. -/
theorem not_mem_encode (escaped : Escaped d) (not_percent : percent ≠ d) (not_digit : isHex d = none)
    (t : Bytes) : d ∉ t.flatMap encodeByte := by
  rw [List.mem_flatMap]
  rintro ⟨c, _, inside⟩
  have bound := c.toNat_lt
  unfold encodeByte at inside
  split at inside
  · simp only [List.mem_cons, List.not_mem_nil, or_false] at inside
    rcases inside with same | same | same
    · exact not_percent same.symm
    · exact hexDigit_ne not_digit (by omega) same.symm
    · exact hexDigit_ne not_digit (by omega) same.symm
  · rename_i plain
    exact plain (List.mem_singleton.mp inside ▸ escaped)

/-- The query of a name: what is in front of a separator, trimmed, is the whole
name only if it has no separator and does not end in a tab. -/
theorem splitBy_service (none : d ∉ asciiText "service=") (t : Bytes) :
    ∃ front more, splitBy isTab d (asciiText "service=" ++ t) = (asciiText "service=" ++ front) :: more ∧
      front <+: t ∧ d ∉ front ∧ (d ∉ t → t.rdropWhile isTab = t → front = t ∧ more = []) := by
  have trimmed := @trimBy_append isTab (asciiText "service=") (by decide) (by decide) (by decide)
  have some : ∀ u, trimBy isTab (asciiText "service=" ++ u) ≠ [] := by
    intro u empty
    rw [trimmed] at empty
    cases empty
  have inside : ∀ {u : Bytes}, d ∉ u → d ∉ u.rdropWhile isTab :=
    fun apart member => apart ((List.rdropWhile_prefix _ _).subset member)
  by_cases member : d ∈ t
  · obtain ⟨u, v, split, apart⟩ := List.eq_append_cons_of_mem member
    have whole : d ∉ asciiText "service=" ++ u := by simp [none, apart]
    refine ⟨u.rdropWhile isTab, splitBy isTab d v, ?_, ?_, inside apart, fun absent => absurd member absent⟩
    · rw [split, ← List.append_assoc, splitBy_cons whole (some u), trimmed]
    · rw [split]
      exact (List.rdropWhile_prefix _ _).trans (List.prefix_append u _)
  · have whole : d ∉ asciiText "service=" ++ t := by simp [none, member]
    refine ⟨t.rdropWhile isTab, [], ?_, List.rdropWhile_prefix _ _, inside member, fun _ same => ⟨same, rfl⟩⟩
    rw [splitBy_whole whole (some t), trimmed]

theorem getLine_line {front : Bytes} (none : newline ∉ front) :
    getLine (front ++ [newline]) = front ++ [newline] := by
  have kept : ∀ x ∈ front, decide (x ≠ newline) = true := by
    intro x member
    exact decide_eq_true fun same => none (same ▸ member)
  rw [getLine, if_pos (by simp), List.takeWhile_append_of_pos kept]
  simp

theorem cString_eq_self {s : Bytes} (none : (0 : UInt8) ∉ s) : cString s = s :=
  List.takeWhile_eq_self_iff.mpr fun _ member => decide_eq_true fun same => none (same ▸ member)

theorem foldl_assignPart {key : Bytes} (some : key ≠ []) (val : Bytes) (parts : List Bytes) :
    parts.foldl assignPart (key, val) = (key, parts.getLastD val) := by
  induction parts generalizing val with
  | nil => rfl
  | cons part parts ih =>
    rw [List.foldl_cons, assignPart, if_neg some, ih]
    cases parts <;> rfl

theorem keyValue_cons {key : Bytes} (some : key ≠ []) (parts : List Bytes) :
    keyValue (key :: parts) = (key, parts.getLastD []) := foldl_assignPart some [] parts

end ReactorRpc.Http
