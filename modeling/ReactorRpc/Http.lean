import Mathlib.Data.List.DropRight
import ReactorRpc.Dispatch

namespace ReactorRpc.Http
open Streams

abbrev tab : UInt8 := 9
abbrev newline : UInt8 := 10
abbrev carriageReturn : UInt8 := 13
abbrev space : UInt8 := 32
abbrev hash : UInt8 := 35
abbrev percent : UInt8 := 37
abbrev ampersand : UInt8 := 38
abbrev plus : UInt8 := 43
abbrev equals : UInt8 := 61
abbrev question : UInt8 := 63
abbrev letterU : UInt8 := 117

/-- A byte string as a C string: it ends before its first zero byte. -/
def cString (s : Bytes) : Bytes := s.takeWhile (· ≠ 0)

/-- The bytes that `encode_url` does not leave alone. -/
def Escaped (c : UInt8) : Prop := c ∈ asciiText " +\r\n',;" ∨ 0x80 ≤ c

instance (c : UInt8) : Decidable (Escaped c) := inferInstanceAs (Decidable (_ ∨ _))

/-- A digit of `%02X`. -/
def hexDigit (n : Nat) : UInt8 := if n < 10 then UInt8.ofNat (48 + n) else UInt8.ofNat (55 + n)

def encodeByte (c : UInt8) : Bytes :=
  if Escaped c then [percent, hexDigit (c.toNat / 16), hexDigit (c.toNat % 16)] else [c]

/-- `encode_url`. -/
def encodeUrl (s : Bytes) : Bytes := (cString s).flatMap encodeByte

/-- `is_hex`: the value of a digit. -/
def isHex (c : UInt8) : Option Nat :=
  if 48 ≤ c ∧ c ≤ 57 then some (c.toNat - 48)
  else if 65 ≤ c ∧ c ≤ 70 then some (c.toNat - 65 + 10)
  else if 97 ≤ c ∧ c ≤ 102 then some (c.toNat - 97 + 10)
  else none

/-- `from_hex_to_i`: the value of a number of digits at the front of a string. -/
def fromHexToI (val : Nat) : Nat → Bytes → Option Nat
  | 0, _ => some val
  | _ + 1, [] => none
  | cnt + 1, c :: rest =>
    match isHex c with
    | some v => fromHexToI (val * 16 + v) cnt rest
    | none => none

/-- `to_utf8` of a code of four digits. -/
def toUtf8 (code : Nat) : Bytes :=
  if code < 0x80 then [UInt8.ofNat code]
  else if code < 0x800 then [UInt8.ofNat (0xC0 + code / 64), UInt8.ofNat (0x80 + code % 64)]
  else if 0xD800 ≤ code ∧ code < 0xE000 then []
  else [UInt8.ofNat (0xE0 + code / 4096), UInt8.ofNat (0x80 + code / 64 % 64),
    UInt8.ofNat (0x80 + code % 64)]

/-- The loop of `decode_url`; the first argument is how many of the bytes at the
front have been used already. -/
def decodeUrl (plusToSpace : Bool) : Nat → Bytes → Bytes
  | _, [] => []
  | skip + 1, _ :: rest => decodeUrl plusToSpace skip rest
  | 0, c :: rest =>
    if c = percent ∧ rest ≠ [] then
      if rest.head? = some letterU then
        match fromHexToI 0 4 rest.tail with
        | some val => toUtf8 val ++ decodeUrl plusToSpace 5 rest
        | none => c :: decodeUrl plusToSpace 0 rest
      else
        match fromHexToI 0 2 rest with
        | some val => UInt8.ofNat val :: decodeUrl plusToSpace 2 rest
        | none => c :: decodeUrl plusToSpace 0 rest
    else if plusToSpace ∧ c = plus then space :: decodeUrl plusToSpace 0 rest
    else c :: decodeUrl plusToSpace 0 rest

/-- `trim`, for bytes of a kind. -/
def trimBy (blank : UInt8 → Bool) (s : Bytes) : Bytes := (s.dropWhile blank).rdropWhile blank

/-- `split`: the parts between the separators, trimmed, without those that are empty then. -/
def splitBy (blank : UInt8 → Bool) (d : UInt8) (s : Bytes) : List Bytes :=
  ((s.splitOn d).map (trimBy blank)).filter (· ≠ [])

def isSpaceOrTab (c : UInt8) : Bool := c = space ∨ c = tab

def split (d : UInt8) (s : Bytes) : List Bytes := splitBy isSpaceOrTab d s

/-- What `parse_query_text` does with a part of a parameter. -/
def assignPart (param : Bytes × Bytes) (part : Bytes) : Bytes × Bytes :=
  if param.1 = [] then (part, param.2) else (param.1, part)

/-- The key and the value of a parameter: its first part, and the last of the others. -/
def keyValue (parts : List Bytes) : Bytes × Bytes := parts.foldl assignPart ([], [])

/-- The loop of `parse_query_text` with the parts it has seen. -/
def queryParams (cache : List Bytes) : List Bytes → List (Bytes × Bytes)
  | [] => []
  | kv :: rest =>
    if kv ∈ cache then queryParams cache rest
    else
      let (key, val) := keyValue (split equals kv)
      if key = [] then queryParams (kv :: cache) rest
      else (decodeUrl true 0 key, decodeUrl true 0 val) :: queryParams (kv :: cache) rest

def parseQueryText (s : Bytes) : List (Bytes × Bytes) := queryParams [] (split ampersand s)

structure HttpRequest where
  method : Bytes
  path : Bytes
  params : List (Bytes × Bytes)
  deriving DecidableEq

def methods : List Bytes :=
  ["GET", "HEAD", "POST", "PUT", "DELETE", "CONNECT", "OPTIONS", "TRACE", "PATCH", "PRI"].map asciiText

def parseRequestLine (line : Bytes) : Option HttpRequest :=
  let s := cString line
  if s.length < 2 ∨ s.drop (s.length - 2) ≠ [carriageReturn, newline] then none
  else
    match split space (s.take (s.length - 2)) with
    | [method, target, version] =>
      if method ∉ methods then none
      else if version ≠ asciiText "HTTP/1.1" ∧ version ≠ asciiText "HTTP/1.0" then none
      else
        match split question (target.takeWhile (· ≠ hash)) with
        | [] => some ⟨method, [], []⟩
        | [path] => some ⟨method, decodeUrl false 0 path, []⟩
        | [path, query] => some ⟨method, decodeUrl false 0 path, parseQueryText query⟩
        | _ => none
    | _ => none

/-- `CPPHTTPLIB_REQUEST_URI_MAX_LENGTH`, a limit on the whole request line. -/
def requestUriMaxLength : Nat := 8192

/-- `getline`: what is read up to a newline. -/
def getLine (sent : Bytes) : Bytes :=
  sent.takeWhile (· ≠ newline) ++ if newline ∈ sent then [newline] else []

/-- The request line that `Get` sends. -/
def requestLine (path : Bytes) : Bytes :=
  asciiText "GET " ++ encodeUrl path ++ asciiText " HTTP/1.1\r\n"

/-- A request line gets through to the routing, or it is answered with a status. -/
def readRequest (sent : Bytes) : Except Nat HttpRequest :=
  if (getLine sent).length > requestUriMaxLength then .error 414
  else
    match parseRequestLine (getLine sent) with
    | none => .error 400
    | some req => .ok req

end ReactorRpc.Http
