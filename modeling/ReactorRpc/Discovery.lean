import ReactorRpc.QueryText
import ReactorRpc.RegistryClient

namespace ReactorRpc.RegistryClient
open Streams Http

/-- The path that `fetchFromRegistry` builds. -/
def discoverPath (service : Bytes) : Bytes := asciiText "/discover?service=" ++ service

/-- A request that is routed to the handler of `/discover`. -/
def forDiscover (req : HttpRequest) : Prop :=
  (req.method = asciiText "GET" ∨ req.method = asciiText "HEAD") ∧ req.path = asciiText "/discover"

instance (req : HttpRequest) : Decidable (forDiscover req) := inferInstanceAs (Decidable (_ ∧ _))

/-- What the registry answers to a request sent by `Get`. -/
def serveGet (dump : Json → Except JsonException Bytes) (center : RegistryCenter) (sent : Bytes) :
    HttpResponse :=
  match readRequest sent with
  | .error status => ⟨status, []⟩
  | .ok req => if forDiscover req then center.handleDiscover dump req.params else ⟨404, []⟩

/-- The service name with which a client that looks for a service has the
handler called, if it gets that far. -/
def handlerName (service : Bytes) : Option Bytes :=
  match readRequest (requestLine (discoverPath service)) with
  | .error _ => none
  | .ok req => if forDiscover req then some (getParamValue req.params (asciiText "service")) else none

theorem encode_path (t : Bytes) :
    encodeUrl (discoverPath t) = (asciiText "/discover?service=" ++ cString t).flatMap encodeByte := by
  have literal : ∀ x ∈ asciiText "/discover?service=", decide (x ≠ 0) = true :=
    List.all_eq_true.mp (by decide)
  rw [encodeUrl, discoverPath, cString, List.takeWhile_append_of_pos literal]
  rfl

theorem zero_not_mem_cString (s : Bytes) : (0 : UInt8) ∉ cString s := by
  intro member
  have other := List.mem_takeWhile_imp member
  simp at other

theorem length_encode (t : Bytes) :
    (t.flatMap encodeByte).length = t.length + 2 * t.countP fun c => Escaped c := by
  induction t with
  | nil => rfl
  | cons c t ih =>
    rw [List.flatMap_cons, List.length_append, ih, List.length_cons, List.countP_cons]
    by_cases escaped : Escaped c
    · rw [encodeByte_escaped escaped, if_pos (decide_eq_true escaped)]
      simp only [List.length_cons, List.length_nil]
      omega
    · rw [encodeByte_plain escaped, if_neg (by simpa using escaped)]
      simp only [List.length_cons, List.length_nil]
      omega

/-- The server reads the request line of a client as the client sent it. -/
theorem getLine_requestLine (path : Bytes) : getLine (requestLine path) = requestLine path := by
  have escaped := @not_mem_encode newline (by decide) (by decide) rfl (cString path)
  have front : newline ∉ asciiText "GET " ++ encodeUrl path ++ asciiText " HTTP/1.1\r" := by
    simp only [List.mem_append, not_or]
    exact ⟨⟨by decide, escaped⟩, by decide⟩
  have whole := getLine_line front
  have line : requestLine path =
      asciiText "GET " ++ encodeUrl path ++ asciiText " HTTP/1.1\r" ++ [newline] := by
    rw [requestLine, List.append_assoc _ (asciiText " HTTP/1.1\r")]
    rfl
  rwa [line]

/-- The target of the request, up to its fragment and without its trailing tabs. -/
def queryName (t : Bytes) : Bytes := (t.rdropWhile isTab).takeWhile (· ≠ hash)

theorem split_requestLine (t : Bytes) :
    split space (asciiText "GET " ++ (asciiText "/discover?service=" ++ t).flatMap encodeByte ++
        asciiText " HTTP/1.1") =
      [asciiText "GET", (asciiText "/discover?service=" ++ t.rdropWhile isTab).flatMap encodeByte,
        asciiText "HTTP/1.1"] := by
  have none := @not_mem_encode space (by decide) (by decide) rfl (asciiText "/discover?service=" ++ t)
  have trimmed := @trimBy_append isTab (asciiText "/discover?service=") (by decide) (by decide) (by decide) t
  have parts : asciiText "GET " ++ (asciiText "/discover?service=" ++ t).flatMap encodeByte ++
      asciiText " HTTP/1.1" = asciiText "GET" ++ space ::
        ((asciiText "/discover?service=" ++ t).flatMap encodeByte ++ space :: asciiText "HTTP/1.1") := by
    rw [List.append_assoc]
    rfl
  have target : trimBy isSpaceOrTab ((asciiText "/discover?service=" ++ t).flatMap encodeByte) =
      (asciiText "/discover?service=" ++ t.rdropWhile isTab).flatMap encodeByte := by
    rw [trimBy_encode, trimmed]
  have some : (asciiText "/discover?service=" ++ t.rdropWhile isTab).flatMap encodeByte ≠ [] := by
    rw [Ne, encode_eq_nil_iff]
    exact List.cons_ne_nil _ _
  rw [parts, split, splitBy_cons (by decide) (by decide), splitBy_cons none (target ▸ some), target,
    splitBy_whole (by decide) (by decide)]
  rfl

/-- The parts of the target: the path, and what a question mark separates in the query. -/
theorem split_target (t : Bytes) :
    split question (((asciiText "/discover?service=" ++ t.rdropWhile isTab).flatMap encodeByte).takeWhile
        (· ≠ hash)) =
      asciiText "/discover" ::
        (splitBy isTab question (asciiText "service=" ++ queryName t)).map fun part => part.flatMap encodeByte := by
  have literal : ∀ x ∈ asciiText "/discover?service=", decide (x ≠ hash) = true :=
    List.all_eq_true.mp (by decide)
  have parts : asciiText "/discover?service=" ++ queryName t =
      asciiText "/discover" ++ question :: (asciiText "service=" ++ queryName t) := rfl
  rw [separator_hash.takeWhile_encode, List.takeWhile_append_of_pos literal, ← queryName, parts,
    separator_question.split_encode, splitBy_cons (by decide) (by decide), List.map_cons]
  rfl

theorem line_end (body : Bytes) :
    let line := body ++ [carriageReturn, newline]
    ¬(line.length < 2 ∨ line.drop (line.length - 2) ≠ [carriageReturn, newline]) ∧
      line.take (line.length - 2) = body := by
  intro line
  have size : line.length - 2 = body.length := by
    rw [List.length_append]
    exact Nat.add_sub_cancel _ _
  rw [size, List.drop_left, List.take_left, List.length_append]
  exact ⟨by simp, rfl⟩

theorem parse_requestLine {t : Bytes} (none : (0 : UInt8) ∉ t) :
    parseRequestLine (asciiText "GET " ++ (asciiText "/discover?service=" ++ t).flatMap encodeByte ++
        asciiText " HTTP/1.1" ++ [carriageReturn, newline]) =
      match splitBy isTab question (asciiText "service=" ++ queryName t) with
      | [query] => some ⟨asciiText "GET", asciiText "/discover", parseQueryText (query.flatMap encodeByte)⟩
      | _ => Option.none := by
  have encoded : (0 : UInt8) ∉ (asciiText "/discover?service=" ++ t).flatMap encodeByte := by
    rw [separator_zero.mem_encode, List.mem_append, not_or]
    exact ⟨by decide, none⟩
  have line : (0 : UInt8) ∉ asciiText "GET " ++ (asciiText "/discover?service=" ++ t).flatMap encodeByte ++
      asciiText " HTTP/1.1" ++ [carriageReturn, newline] := by
    simp only [List.mem_append, not_or] at encoded ⊢
    exact ⟨⟨⟨by decide, encoded⟩, by decide⟩, by decide⟩
  obtain ⟨front, more, query, _⟩ := @splitBy_service question (by decide) (queryName t)
  obtain ⟨ends, body⟩ := line_end (asciiText "GET " ++
    (asciiText "/discover?service=" ++ t).flatMap encodeByte ++ asciiText " HTTP/1.1")
  unfold parseRequestLine
  rw [cString_eq_self line]
  dsimp only
  rw [if_neg ends, body, split_requestLine]
  dsimp only
  rw [if_neg (by decide), if_neg (by decide), split_target, query]
  cases more <;> rfl

/-- The handler is called with the value of the first parameter: the last part of it
behind an equals sign. -/
theorem query_value (u : Bytes) :
    ∃ front, front <+: u ∧ ampersand ∉ front ∧
      (ampersand ∉ u → u.rdropWhile isTab = u → front = u) ∧
      getParamValue (parseQueryText ((asciiText "service=" ++ u).flatMap encodeByte)) (asciiText "service") =
        decodeUrl false 0 ((splitBy isTab equals front).getLastD []) := by
  obtain ⟨front, more, parts, inside, apart, whole⟩ := @splitBy_service ampersand (by decide) u
  refine ⟨front, inside, apart, fun none same => (whole none same).1, ?_⟩
  have service : (asciiText "service=" ++ front) = asciiText "service" ++ equals :: front := rfl
  have some : (asciiText "service").flatMap encodeByte ≠ [] := by decide
  have last : ∀ ps : List Bytes, (ps.map fun part => part.flatMap encodeByte).getLastD [] =
      (ps.getLastD []).flatMap encodeByte := by
    intro ps
    rw [List.getLastD_eq_getLast?, List.getLastD_eq_getLast?, List.getLast?_map]
    cases ps.getLast? <;> rfl
  rw [parseQueryText, separator_ampersand.split_encode, parts, List.map_cons, queryParams,
    if_neg List.not_mem_nil, separator_equals.split_encode, service, splitBy_cons (by decide) (by decide),
    List.map_cons]
  dsimp only
  rw [keyValue_cons (by decide), last]
  dsimp only
  rw [if_neg (by decide), decodeUrl_encode 0 (by simp), decodeUrl_encode 0 (by simp)]
  rfl

/-- A name without a byte that means something in a request, and without a tab at its ends. -/
def Plain (s : Bytes) : Prop :=
  (∀ d ∈ [0, hash, question, ampersand, equals], d ∉ s) ∧ trimBy isTab s = s

theorem requestLine_discover (s : Bytes) :
    requestLine (discoverPath s) = asciiText "GET " ++
      (asciiText "/discover?service=" ++ cString s).flatMap encodeByte ++ asciiText " HTTP/1.1" ++
        [carriageReturn, newline] := by
  rw [requestLine, encode_path, List.append_assoc _ (asciiText " HTTP/1.1")]
  rfl

theorem requestLine_length (s : Bytes) :
    (requestLine (discoverPath s)).length =
      33 + (cString s).length + 2 * (cString s).countP fun c => Escaped c := by
  have literal : (asciiText "/discover?service=").countP (fun c => Escaped c) = 0 := by decide
  have sizes : (asciiText "GET ").length = 4 ∧ (asciiText "/discover?service=").length = 18 ∧
      (asciiText " HTTP/1.1").length = 9 := by decide
  rw [requestLine_discover, List.length_append, List.length_append, List.length_append, length_encode,
    List.length_append, List.countP_append, literal, sizes.1, sizes.2.1, sizes.2.2, List.length_cons,
    List.length_singleton]
  omega

theorem handlerName_eq (s : Bytes) :
    handlerName s =
      if (requestLine (discoverPath s)).length > requestUriMaxLength then none
      else
        match splitBy isTab question (asciiText "service=" ++ queryName (cString s)) with
        | [query] => some (getParamValue (parseQueryText (query.flatMap encodeByte)) (asciiText "service"))
        | _ => none := by
  rw [handlerName, readRequest, getLine_requestLine]
  by_cases long : (requestLine (discoverPath s)).length > requestUriMaxLength
  · rw [if_pos long, if_pos long]
  · rw [if_neg long, if_neg long, requestLine_discover, parse_requestLine (zero_not_mem_cString s)]
    obtain ⟨front, more, query, _⟩ := @splitBy_service question (by decide) (queryName (cString s))
    rw [query]
    cases more with
    | nil => exact if_pos ⟨.inl rfl, rfl⟩
    | cons part more => rfl

theorem queryName_front (t : Bytes) : queryName t <+: t :=
  (List.takeWhile_prefix _).trans (List.rdropWhile_prefix _ _)

theorem hash_not_mem_queryName (t : Bytes) : hash ∉ queryName t := by
  intro member
  have other := List.mem_takeWhile_imp member
  simp at other

/-- The value is the last part between equals signs, trimmed, or empty. -/
theorem lastValue_cases (last : Bytes) :
    (splitBy isTab equals last).getLastD [] = [] ∨
      ∃ raw, (splitBy isTab equals last).getLastD [] = trimBy isTab raw ∧ raw <:+: last ∧ equals ∉ raw := by
  rw [List.getLastD_eq_getLast?]
  cases found : (splitBy isTab equals last).getLast? with
  | none => exact .inl rfl
  | some part =>
    obtain ⟨_, raw, trimmed, inner, noEquals⟩ := mem_splitBy (List.mem_of_getLast? found)
    exact .inr ⟨raw, trimmed, inner, noEquals⟩

/-- A name of which nothing is left out on its way is plain. -/
theorem plain_of_whole {s front last raw : Bytes} (inside : front <+: queryName (cString s))
    (within : last <+: front) (inner : raw <:+: last) (noQuestion : question ∉ front)
    (noAmpersand : ampersand ∉ last) (noEquals : equals ∉ raw) (whole : trimBy isTab raw = s) : Plain s := by
  have back : s <:+: raw := by
    rw [← whole]
    exact trimBy_inside raw
  -- every stretch between the last part and the whole name is the whole name
  have equal : ∀ {x : Bytes}, raw <:+: x → x <:+: s → x = s := fun above below =>
    below.eq_of_length_le (back.trans above).length_le
  have name : cString s <:+: s := (List.takeWhile_prefix _).isInfix
  have query : queryName (cString s) <:+: s := (queryName_front _).isInfix.trans name
  have before : front <:+: s := inside.isInfix.trans query
  have here : last <:+: s := within.isInfix.trans before
  have inFront : raw <:+: front := inner.trans within.isInfix
  have inQuery : raw <:+: queryName (cString s) := inFront.trans inside.isInfix
  have noZero := zero_not_mem_cString s
  have noHash := hash_not_mem_queryName (cString s)
  rw [equal (inQuery.trans (queryName_front _).isInfix) name] at noZero
  rw [equal inQuery query] at noHash
  rw [equal inFront before] at noQuestion
  rw [equal inner here] at noAmpersand
  rw [equal List.infix_rfl (inner.trans here)] at noEquals whole
  refine ⟨?_, whole⟩
  simp only [List.forall_mem_cons]
  exact ⟨noZero, noHash, noQuestion, noAmpersand, noEquals, by simp⟩

/-- The handler is called with some stretch of the name, decoded, or not at all. -/
theorem handlerName_cases {s : Bytes} (some : s ≠ []) :
    handlerName s = none ∨ ∃ part, handlerName s = Option.some (decodeUrl false 0 part) ∧
      part <:+: s ∧ (part = s → Plain s ∧ (requestLine (discoverPath s)).length ≤ requestUriMaxLength) := by
  rw [handlerName_eq]
  split
  · exact .inl rfl
  rename_i short
  obtain ⟨front, more, query, inside, noQuestion, _⟩ :=
    @splitBy_service question (by decide) (queryName (cString s))
  rw [query]
  cases more with
  | cons part more => exact .inl rfl
  | nil =>
    right
    obtain ⟨last, within, noAmpersand, _, value⟩ := query_value front
    refine ⟨_, congrArg Option.some value, ?_⟩
    rcases lastValue_cases last with none | ⟨raw, trimmed, inner, noEquals⟩
    · rw [none]
      exact ⟨List.nil_infix, fun whole => absurd whole.symm some⟩
    · have here : last <:+: s :=
        (within.trans (inside.trans ((queryName_front _).trans (List.takeWhile_prefix _)))).isInfix
      rw [trimmed]
      refine ⟨(trimBy_inside raw).trans (inner.trans here), fun whole => ⟨?_, Nat.le_of_not_lt short⟩⟩
      exact plain_of_whole inside within inner noQuestion noAmpersand noEquals whole

theorem rdropWhile_of_trimmed {s : Bytes} (trimmed : trimBy isTab s = s) : s.rdropWhile isTab = s := by
  have start : s.dropWhile isTab = s := (List.dropWhile_suffix _).sublist.eq_of_length_le (by
    have shorter := (List.rdropWhile_prefix isTab (s.dropWhile isTab)).length_le
    rw [← trimBy, trimmed] at shorter
    exact shorter)
  rw [trimBy, start] at trimmed
  exact trimmed

theorem handlerName_plain {s : Bytes} (some : s ≠ []) (plain : Plain s)
    (short : (requestLine (discoverPath s)).length ≤ requestUriMaxLength) :
    handlerName s = Option.some (decodeUrl false 0 s) := by
  obtain ⟨absent, trimmed⟩ := plain
  simp only [List.forall_mem_cons] at absent
  obtain ⟨noZero, noHash, noQuestion, noAmpersand, noEquals, _⟩ := absent
  have ends := rdropWhile_of_trimmed trimmed
  have name : queryName (cString s) = s := by
    rw [cString_eq_self noZero, queryName, ends]
    exact List.takeWhile_eq_self_iff.mpr fun _ member => decide_eq_true fun same => noHash (same ▸ member)
  obtain ⟨front, more, query, _, _, whole⟩ := @splitBy_service question (by decide) s
  obtain ⟨rfl, rfl⟩ := whole noQuestion ends
  obtain ⟨last, _, _, same, value⟩ := query_value front
  cases same noAmpersand ends
  rw [splitBy_whole noEquals (trimmed.symm ▸ some), trimmed] at value
  rw [handlerName_eq, if_neg (Nat.not_lt.mpr short), name, query]
  exact congrArg Option.some value

/-- A service name with which a client reaches the addresses registered under it:
it has no byte that ends or divides the query, no tab at its ends and no escape,
and its request line fits. -/
structure Discoverable (service : Bytes) : Prop where
  undivided : ∀ d ∈ [0, hash, question, ampersand, equals], d ∉ service
  no_tab : service.head? ≠ some tab ∧ service.getLast? ≠ some tab
  no_escape : ∀ t, t <:+ service → ¬StartsEscape t
  short : 33 + service.length + 2 * (service.countP fun c => Escaped c) ≤ requestUriMaxLength

theorem trimBy_eq_self_iff {s : Bytes} :
    trimBy isTab s = s ↔ s.head? ≠ some tab ∧ s.getLast? ≠ some tab := by
  constructor
  · intro trimmed
    have ends := rdropWhile_of_trimmed trimmed
    constructor
    · intro head
      cases s with
      | nil => cases head
      | cons c s =>
        cases Option.some.inj head
        have shorter := (List.rdropWhile_prefix isTab (s.dropWhile isTab)).length_le.trans
          (List.dropWhile_suffix (l := s) isTab).length_le
        have same : (s.dropWhile isTab).rdropWhile isTab = tab :: s := trimmed
        rw [same, List.length_cons] at shorter
        omega
    · intro last
      obtain ⟨front, rfl⟩ := List.getLast?_eq_some_iff.mp last
      rw [List.rdropWhile_concat_pos _ _ _ (show isTab tab = true from rfl)] at ends
      have shorter := (List.rdropWhile_prefix isTab front).length_le
      rw [ends, List.length_append, List.length_singleton] at shorter
      omega
  · rintro ⟨head, last⟩
    have start : s.dropWhile isTab = s := by
      cases s with
      | nil => rfl
      | cons c s =>
        refine List.dropWhile_cons_of_neg fun bare => head ?_
        rw [List.head?_cons, of_decide_eq_true bare]
    rw [trimBy, start, List.rdropWhile_eq_self_iff]
    intro some bare
    rw [List.getLast?_eq_some_getLast some, of_decide_eq_true bare] at last
    exact last rfl

theorem requestLine_length_of_plain {s : Bytes} (none : (0 : UInt8) ∉ s) :
    (requestLine (discoverPath s)).length = 33 + s.length + 2 * s.countP fun c => Escaped c := by
  rw [requestLine_length, cString_eq_self none]

theorem handlerName_iff {service : Bytes} (some : service ≠ []) :
    handlerName service = Option.some service ↔ Discoverable service := by
  constructor
  · intro called
    rcases handlerName_cases some with nobody | ⟨part, value, inside, whole⟩
    · rw [nobody] at called
      cases called
    · have decoded : decodeUrl false 0 part = service := Option.some.inj (value.symm.trans called)
      have shorter := decodeUrl_length 0 part
      rw [decoded] at shorter
      cases inside.eq_of_length_le shorter
      obtain ⟨⟨undivided, trimmed⟩, short⟩ := whole rfl
      rw [requestLine_length_of_plain (undivided 0 List.mem_cons_self)] at short
      exact ⟨undivided, trimBy_eq_self_iff.mp trimmed, decodeUrl_eq_self_iff.mp decoded, short⟩
  · rintro ⟨undivided, noTab, noEscape, short⟩
    rw [← requestLine_length_of_plain (undivided 0 List.mem_cons_self)] at short
    rw [handlerName_plain some ⟨undivided, trimBy_eq_self_iff.mpr noTab⟩ short,
      decodeUrl_eq_self_iff.mpr noEscape]

/-- A request that has the handler called with a service is answered with its addresses. -/
theorem serveGet_of_handlerName {dump : Json → Except JsonException Bytes} {center : RegistryCenter}
    {service name text : Bytes} (called : handlerName service = some name) (named : name ≠ [])
    (dumped : dump (.ofStrings (center.addresses name)) = .ok text) :
    serveGet dump center (requestLine (discoverPath service)) = ⟨200, text⟩ := by
  unfold handlerName at called
  unfold serveGet
  split at called
  · cases called
  split at called
  · cases called
    rename_i routed
    rw [if_pos routed]
    unfold RegistryCenter.handleDiscover
    dsimp only
    rw [if_neg named, dumped]
  · cases called

/-- An address that has just been registered under a name is found by a client
that asks for the name exactly when the name can be written into the query as it
is, and the client asks at all. -/
theorem discovered_iff {parse : Bytes → Except JsonException Json} {dump : Json → Except JsonException Bytes}
    (ops : List RegistryCenter.Op) {body service address text : Bytes}
    (accepted : RegistryCenter.Accepted parse body service address)
    (dumped : dump (.ofStrings ((RegistryCenter.run parse (ops ++ [.register body])).addresses service)) =
      .ok text)
    (parsed : parse text =
      .ok (.ofStrings ((RegistryCenter.run parse (ops ++ [.register body])).addresses service)))
    (retryTimes : Int) :
    let center := RegistryCenter.run parse (ops ++ [.register body])
    let answer := serveGet dump center (requestLine (discoverPath service))
    (handlerName service = some service ∧
        ∃ list, fetchFromRegistry parse retryTimes (fun _ => some answer) = .ok list ∧ address ∈ list) ↔
      Discoverable service ∧ 0 ≤ retryTimes := by
  intro center answer
  have named := accepted.2.1
  constructor
  · rintro ⟨called, list, fetched, member⟩
    refine ⟨(handlerName_iff named).mp called, ?_⟩
    by_contra never
    have count : (retryTimes + 1).toNat = 0 := by omega
    rw [fetchFromRegistry, count] at fetched
    cases fetched
    exact List.not_mem_nil member
  · rintro ⟨discoverable, asks⟩
    have called := (handlerName_iff named).mpr discoverable
    have answered : answer = ⟨200, text⟩ := serveGet_of_handlerName called named dumped
    refine ⟨called, _, by rw [answered]; exact fetchFromRegistry_answered asks parsed, ?_⟩
    rw [RegistryCenter.mem_addresses, RegistryCenter.run, List.foldl_append]
    exact (RegistryCenter.mem_apply parse _ _ service address).mpr (.inl ⟨body, rfl, accepted⟩)

/-- The body with which a server registers. -/
def registerBody (service address : Bytes) : Bytes :=
  asciiText "\x7b\"service\":\"" ++ service ++ asciiText "\",\"address\":\"" ++ address ++ asciiText "\"\x7d"

def listBody (address : Bytes) : Bytes := asciiText "[\"" ++ address ++ asciiText "\"]"

/-- What the JSON library does with one registration and the list it leads to. -/
def parseOne (service address text : Bytes) : Except JsonException Json :=
  if text = registerBody service address then
    .ok (.object [(asciiText "address", .string address), (asciiText "service", .string service)])
  else if text = listBody address then .ok (.ofStrings [address])
  else .error .parse_error

theorem parseOne_accepted {service address : Bytes} (named : service ≠ []) (placed : address ≠ []) :
    RegistryCenter.Accepted (parseOne service address) (registerBody service address) service address :=
  ⟨⟨_, if_pos rfl, rfl⟩, named, placed⟩

theorem parseOne_addresses {service address : Bytes} (named : service ≠ []) (placed : address ≠ []) :
    (RegistryCenter.run (parseOne service address) ([] ++ [.register (registerBody service address)])).addresses
      service = [address] :=
  RegistryCenter.addresses_registered (parseOne_accepted named placed)

theorem parseOne_list (service address : Bytes) :
    parseOne service address (listBody address) = .ok (.ofStrings [address]) := by
  have other : listBody address ≠ registerBody service address := by
    intro same
    cases (List.cons.inj same).1
  rw [parseOne, if_neg other, if_pos rfl]

theorem discovered_math :
    let service := asciiText "MathService"
    let address := asciiText "127.0.0.1:9000"
    let parse := parseOne service address
    let dump := fun _ => .ok (listBody address)
    let center := RegistryCenter.run parse ([] ++ [.register (registerBody service address)])
    let answer := serveGet dump center (requestLine (discoverPath service))
    handlerName service = some service ∧
      ∃ list, fetchFromRegistry parse 2 (fun _ => some answer) = .ok list ∧ address ∈ list := by
  intro service address parse dump center answer
  have listed : center.addresses service = [address] := parseOne_addresses (by decide) (by decide)
  refine (discovered_iff [] (parseOne_accepted (by decide) (by decide)) rfl ?_ 2).mpr ⟨?_, by decide⟩
  · rw [show (RegistryCenter.run parse ([] ++ [.register (registerBody service address)])).addresses service =
      [address] from listed]
    exact parseOne_list service address
  · exact (handlerName_iff (by decide)).mp (by decide)

/-- A name with an ampersand is registered, and asked for by its front only. -/
theorem ampersand_not_discovered :
    ¬∀ (parse : Bytes → Except JsonException Json) (dump : Json → Except JsonException Bytes)
      (body service address text : Bytes), RegistryCenter.Accepted parse body service address →
      let center := RegistryCenter.run parse [.register body]
      let answer := serveGet dump center (requestLine (discoverPath service))
      dump (.ofStrings (center.addresses service)) = .ok text →
      parse text = .ok (.ofStrings (center.addresses service)) →
      handlerName service = some service ∧
        ∃ list, fetchFromRegistry parse 2 (fun _ => some answer) = .ok list ∧ address ∈ list := by
  intro reached
  let service := asciiText "a&b"
  let address := asciiText "127.0.0.1:9000"
  have listed := @parseOne_addresses service address (by decide) (by decide)
  have here := reached (parseOne service address) (fun _ => .ok (listBody address)) _ service address
    (listBody address) (parseOne_accepted (by decide) (by decide)) rfl
    ((parseOne_list service address).trans (congrArg (fun list => Except.ok (Json.ofStrings list)) listed.symm))
  exact absurd here.1 (by decide)

end ReactorRpc.RegistryClient
