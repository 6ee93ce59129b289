import ReactorRpc.RegistryCenter

namespace ReactorRpc

/-- What an object is constructed with, and the JSON parser it calls. -/
structure RegistryClient where
  parse : Streams.Bytes → Except JsonException Json
  cacheExpire : Int
  retryTimes : Int

namespace RegistryClient
open Streams

section
variable (parse : Bytes → Except JsonException Json)

/-- The loop of `fetchFromRegistry`, over what its attempts get: a response, or
none. An exception other than `parse_error` leaves the function. -/
def fetchLoop : List (Option HttpResponse) → Except JsonException (List Bytes)
  | [] => .ok []
  | none :: later => fetchLoop later
  | some res :: later =>
    if res.status = 200 then
      match parse res.body with
      | .error .parse_error => fetchLoop later
      | .error exception => .error exception
      | .ok arr => if arr.isArray then arr.getStrings else fetchLoop later
    else fetchLoop later

/-- `fetchFromRegistry`, which makes its attempts numbered from 0 to `retryTimes_`. -/
def fetchFromRegistry (retryTimes : Int) (get : Nat → Option HttpResponse) :
    Except JsonException (List Bytes) :=
  fetchLoop parse ((List.range (retryTimes + 1).toNat).map get)

variable {parse}

theorem fetchFromRegistry_answered {retryTimes : Int}
    (asks : 0 ≤ retryTimes) {text : Bytes} {list : List Bytes} (parsed : parse text = .ok (.ofStrings list)) :
    fetchFromRegistry parse retryTimes (fun _ => some ⟨200, text⟩) = .ok list := by
  obtain ⟨more, count⟩ : ∃ more, (retryTimes + 1).toNat = more + 1 := ⟨retryTimes.toNat, by omega⟩
  rw [fetchFromRegistry, count, List.range_succ_eq_map, List.map_cons, fetchLoop, if_pos rfl, parsed]
  exact Json.getStrings_ofStrings list

end

/-- An entry of `cache_`. The clock counts nanoseconds. -/
structure CacheItem where
  addrs : List Bytes
  timestamp : Nat
  deriving DecidableEq

/-- The age in whole seconds, as `duration_cast<seconds>` gives it, has reached `cacheExpire_`. -/
def Expired (client : RegistryClient) (now : Nat) (item : CacheItem) : Prop :=
  client.cacheExpire ≤ ((now : Int) - item.timestamp).tdiv 1000000000

instance (client : RegistryClient) (now : Nat) (item : CacheItem) : Decidable (client.Expired now item) :=
  inferInstanceAs (Decidable (_ ≤ _))

abbrev lineEnd : UInt8 := 10

/-- What `saveToDisk` writes. -/
def saveText (addrs : List Bytes) : Bytes := addrs.flatMap fun addr => addr ++ [lineEnd]

/-- What `loadFromDisk` makes of a file: its lines, without those that are empty. -/
def loadText (text : Bytes) : List Bytes := (text.splitOn lineEnd).filter (· ≠ [])

theorem loadText_ne_nil_iff {text : Bytes} : loadText text ≠ [] ↔ ∃ x ∈ text, x ≠ lineEnd := by
  induction text with
  | nil => simp [loadText]
  | cons c text ih =>
    rw [loadText, List.splitOn_cons_eq_if_modifyHead]
    by_cases same : c = lineEnd
    · subst c
      simpa [loadText] using ih
    · obtain ⟨line, lines, split⟩ := List.exists_cons_of_ne_nil (List.splitOn_ne_nil lineEnd text)
      rw [if_neg (by simpa using same), split, List.modifyHead_cons, List.filter_cons_of_pos (by simp)]
      exact iff_of_true (List.cons_ne_nil _ _) ⟨c, List.mem_cons_self, same⟩

end RegistryClient
end ReactorRpc
