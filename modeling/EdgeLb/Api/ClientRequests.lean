/-
  EdgeLb.Api.ClientRequests — what becomes of the names and queries in the URLs that clients send
  (`handle` of `edge-lb/src/api/server.rs`, `route` of `api/router.rs`, `api/handlers/common.rs`,
  and `ui/src/api/client.ts`).

  The bundled UI writes the name of a target group into the path with `encodeURIComponent`; the
  server takes the text behind the prefix as the name, as it stands. An update or a deletion is of
  the group that was meant just when encoding leaves its name alone (`named_requests_exact_iff`).

  A list is cut into pages by `paginate_items`, and the pages add up to the list (`pages_join`).
  But `handle` passes the path on without its query, so every reply is the first page of twenty
  of the whole list (`list_request_answered_iff`).
-/

import EdgeLb.Api.Commits
import EdgeLb.Api.Forward

namespace EdgeLb.Api

open EdgeLb.Config EdgeLb.Lib EdgeLb.Storage EdgeLb.Control

/-! ## Names in paths -/

/-- The characters that `encodeURIComponent` leaves alone. -/
def unreserved (c : Char) : Bool := c.isAlphanum || containsChar "-_.!~*'()" c

def hexDigits : List Char := "0123456789ABCDEF".toList

def percentByte (b : UInt8) : List Char :=
  ['%', hexDigits.getD (b.toNat / 16) '0', hexDigits.getD (b.toNat % 16) '0']

def encodeURIComponent (s : String) : String :=
  String.ofList (s.toList.flatMap fun c => if unreserved c then [c] else (String.utf8EncodeChar c).flatMap percentByte)

theorem mem_encodeURIComponent {s : String} {c : Char} (hc : c ∈ (encodeURIComponent s).toList) :
    unreserved c = true ∨ c = '%' := by
  have hhex : ∀ d ∈ hexDigits, unreserved d = true := List.all_eq_true.mp (by decide)
  have hdigit : ∀ n, unreserved (hexDigits.getD n '0') = true := by
    intro n
    rw [List.getD_eq_getElem?_getD]
    cases hn : hexDigits[n]? with
    | none => decide
    | some d => exact hhex d (List.mem_of_getElem? hn)
  rw [encodeURIComponent, String.toList_ofList] at hc
  obtain ⟨c₀, -, hc⟩ := List.mem_flatMap.mp hc
  split at hc
  · next hc₀ => exact .inl (List.mem_singleton.mp hc ▸ hc₀)
  · obtain ⟨b, -, hc⟩ := List.mem_flatMap.mp hc
    simp only [percentByte, List.mem_cons, List.not_mem_nil, or_false] at hc
    rcases hc with rfl | rfl | rfl
    · exact .inr rfl
    · exact .inl (hdigit _)
    · exact .inl (hdigit _)

theorem not_mem_encodeURIComponent {c : Char} (hc : unreserved c = false ∧ c ≠ '%') (s : String) :
    c ∉ (encodeURIComponent s).toList := by
  intro hmem
  rcases mem_encodeURIComponent hmem with h | h
  · rw [hc.1] at h
    cases h
  · exact hc.2 h

theorem splitOnce_eq_none {c : Char} {cs : List Char} (h : c ∉ cs) : splitOnce c cs = none := by
  induction cs with
  | nil => rfl
  | cons x cs ih =>
    obtain ⟨hx, hcs⟩ := not_or.mp (List.mem_cons.not.mp h)
    rw [splitOnce, if_neg (Ne.symm hx), ih hcs]
    rfl

def groupPath (name : String) : String := "/api/v1/target-groups/" ++ encodeURIComponent name

theorem stripPrefix_append (pre s : String) : stripPrefix pre (pre ++ s) = some s := by
  have hstarts : startsWith (pre ++ s) pre = true := startsWith_iff.mpr ⟨s.toList, String.toList_append⟩
  have hdrop : (pre ++ s).toList.drop pre.length = s.toList := by
    rw [String.toList_append, ← String.length_toList]
    exact List.drop_left
  rw [stripPrefix, if_pos hstarts, hdrop, String.ofList_toList]

theorem canonicalPath_group (tail : String) :
    canonicalPath ("/api/v1/target-groups/" ++ tail) = some ("/api/target-groups/" ++ tail) := by
  generalize hrest : "/target-groups/" ++ tail = rest
  have hpath : "/api/v1/target-groups/" ++ tail = "/api/v1" ++ rest := by rw [← hrest, ← String.append_assoc]; rfl
  have hpublic : "/api/target-groups/" ++ tail = "/api" ++ rest := by rw [← hrest, ← String.append_assoc]; rfl
  have hchars : rest.toList = "/target-groups/".toList ++ tail.toList := by rw [← hrest, String.toList_append]
  have hgroup : startsWith rest "/target-groups/" = true := startsWith_iff.mpr ⟨tail.toList, hchars⟩
  have hempty : rest ≠ "" := fun h => by rw [h] at hchars; cases hchars
  have hauto : rest ≠ "/automations" := fun h => by rw [h] at hchars; cases hchars
  have hnamed : stripPrefix "/automations/" rest = none := by simp only [stripPrefix, startsWith, hchars]; rfl
  rw [hpath, hpublic, canonicalPath, stripPrefix_append]
  simp only [hempty, hauto, if_false, hnamed]
  cases hlookup : mappedPaths.lookup rest with
  | none =>
    simp only [hgroup, Bool.true_or, if_true]
    rfl
  | some path =>
    obtain ⟨l₁, l₂, hmapped, -⟩ := List.lookup_eq_some_iff.mp hlookup
    have hmem : (rest, path) ∈ mappedPaths := by rw [hmapped]; simp
    have hsame : ∀ p ∈ mappedPaths, startsWith p.1 "/target-groups/" = true → p.2 = "/api" ++ p.1 := by decide
    exact congrArg some (hsame _ hmem hgroup)

theorem trimStartMatches_append {pre tail : String} (hpre : '/' ∈ pre.toList) (htail : '/' ∉ tail.toList) :
    trimStartMatches pre (pre ++ tail) = tail := by
  have hstop : ∀ fuel, trimStartMatches.go pre fuel tail.toList = tail := by
    intro fuel
    have hnot : ¬ pre.toList.isPrefixOf tail.toList = true := fun h =>
      htail ((List.isPrefixOf_iff_prefix.mp h).subset hpre)
    cases fuel with
    | zero => exact String.ofList_toList
    | succ fuel => rw [trimStartMatches.go, if_neg hnot, String.ofList_toList]
  obtain ⟨n, hn⟩ : ∃ n, (pre ++ tail).length = n + 1 := by
    refine ⟨pre.length - 1 + tail.length, ?_⟩
    have hpos := List.length_pos_of_mem hpre
    rw [String.length_toList] at hpos
    rw [String.length_append]
    omega
  have hdrop : (pre.toList ++ tail.toList).drop pre.length = tail.toList := by
    rw [← String.length_toList]
    exact List.drop_left
  rw [trimStartMatches, hn, String.toList_append, trimStartMatches.go,
    if_pos (List.isPrefixOf_iff_prefix.mpr (List.prefix_append ..)), hdrop, hstop]

theorem operationOf_group {B : Type} {tail : String} (htail : '/' ∉ tail.toList) (body : B) :
    operationOf .put ("/api/target-groups/" ++ tail) body = some (.targetGroupUpdate tail body) ∧
      operationOf .delete ("/api/target-groups/" ++ tail) body = some (.targetGroupDelete tail) := by
  have hstarts : startsWith ("/api/target-groups/" ++ tail) "/api/target-groups/" = true :=
    startsWith_iff.mpr ⟨tail.toList, String.toList_append⟩
  have hname := @trimStartMatches_append "/api/target-groups/" tail (by decide) htail
  simp only [operationOf, hstarts, if_true, hname, and_self]

section

variable {B P H : Type} (J : Json B)

/-- `updateTargetGroup` of the UI. -/
def updateRequest (name : String) (group : TargetGroup) : Request B :=
  { method := .put, path := groupPath name, body := J.targetGroup.encode group }

/-- `deleteTargetGroup` of the UI. -/
def deleteRequest (name : String) (body : B) : Request B := { method := .delete, path := groupPath name, body }

theorem toList_groupPath (name : String) :
    (groupPath name).toList = "/api/v1/target-groups/".toList ++ (encodeURIComponent name).toList :=
  String.toList_append

theorem route_group (name : String) (body : B) :
    route { method := .put, path := groupPath name, body } =
        .write (.targetGroupUpdate (encodeURIComponent name) body) ∧
      route { method := .delete, path := groupPath name, body } =
        .write (.targetGroupDelete (encodeURIComponent name)) := by
  have hquery : splitPathQuery (groupPath name) = groupPath name := by
    have hroot : '?' ∉ "/api/v1/target-groups/".toList := by decide
    have hnone : '?' ∉ (groupPath name).toList := by
      rw [toList_groupPath, List.mem_append]
      exact not_or.mpr ⟨hroot, not_mem_encodeURIComponent (by decide) name⟩
    rw [splitPathQuery, splitOnce_eq_none hnone]
    rfl
  have hv1 : startsWith (groupPath name) "/api/v1/" = true := by
    have hroot : "/api/v1/target-groups/".toList = "/api/v1/".toList ++ "target-groups/".toList := by decide
    rw [startsWith_iff, toList_groupPath, hroot, List.append_assoc]
    exact ⟨_, rfl⟩
  have hcanonical : canonicalPath (groupPath name) = some ("/api/target-groups/" ++ encodeURIComponent name) :=
    canonicalPath_group _
  obtain ⟨hput, hdelete⟩ := operationOf_group (not_mem_encodeURIComponent (c := '/') (by decide) name) body
  simp only [route, hquery, hv1, Bool.not_true, Bool.false_eq_true, if_false, hcanonical, hput, hdelete, and_self]

/-- A body that `target_group_body` gives a name reads as the group with that name. -/
def Json.NamesBodies : Prop :=
  ∀ name group, J.targetGroup.decode (J.withName name (J.targetGroup.encode group)) = .ok { group with name }

/-- The stored configuration after the group of that name is replaced, if the check allows it. -/
def updated (cfg : FileConfig) (name : String) (group : TargetGroup) (config : ProxyConfig) : ProxyConfig :=
  (upsertTargetGroup cfg { group with name } config).toOption.getD config

def deleted (name : String) (config : ProxyConfig) : ProxyConfig := (deleteTargetGroup name config).toOption.getD config

/-- The gateway applies writes itself, to `config`. -/
structure Master (F : Format P H) (gw : Gateway P) (config : ProxyConfig) (standby : Option GatewayHaPeer) : Prop where
  settled : (gw.base F).Settled
  stores : Writable F (gw.base F) 1 config gw.docs
  role : writeRole F (gw.base F) gw.docs = .ok (.localMaster standby)

/-- The configuration that a write is given. -/
def Gateway.requestConfig (F : Format P H) (now : Nat) (gw : Gateway P) (config : ProxyConfig) : FileConfig :=
  loaded (gw.base F) (mergeInto now (gw.base F) gw.registry).2.1.backendNodes config

variable {J} [DecidableEq P] {F : Format P H}

theorem Master.handle_stores {gw : Gateway P} {config : ProxyConfig} {standby : Option GatewayHaPeer}
    (h : Master F gw config standby) {req : Request B} {op : ProxyConfigOperation B} (hroute : route req = .write op)
    (now : Nat) (at_ : Stamp) :
    readConfig F (gw.requestConfig F now config) (handle F J now at_ req gw).1.docs =
      .ok (commit J (gw.requestConfig F now config) (loadHa F gw.docs).toOption config op) := by
  rw [handle_write hroute h.settled h.stores h.role]
  obtain ⟨left, -, b, hb, hconfig, -⟩ := invokeLocal_commit (J := J) (writable_loaded h.stores
    (mergeInto now (gw.base F) gw.registry).2.1.backendNodes) op at_
  rw [← applyAsMaster_docs _ _ _ standby] at hb
  exact hconfig ▸ (read_eq_ok.mp hb).1

/-- A gateway without HA that stores `config`. -/
def standalone (F : Format P H) (config : ProxyConfig) : Gateway P :=
  { file := FileConfig.normalize { nodeRole := .gateway }
    docs := fun
      | .listeners => some ⟨F.listeners.encode config.listeners, 1, ""⟩
      | .targetGroups => some ⟨F.targetGroups.encode config.targetGroups, 1, ""⟩
      | _ => none }

omit [DecidableEq P] in
theorem master_standalone (F : Format P H) (config : ProxyConfig) : Master F (standalone F config) config none := by
  have hsettled : (standalone F config).file.Settled :=
    @settled_normalize { nodeRole := .gateway } rfl
  have hha : loadHa F (standalone F config).docs = .ok {} := rfl
  have hbase : (standalone F config).base F = (standalone F config).file := by
    show mergeGatewayPeers F (standalone F config).docs (standalone F config).file = _
    generalize (standalone F config).file = file at hsettled
    have hkept : file.backendNodes.filter (fun backend => backend.underlayIp ∉ ([] : List IpAddr)) =
        file.backendNodes :=
      List.filter_eq_self.mpr fun _ _ => by simp
    simp only [mergeGatewayPeers, hsettled.role, hha, mergePeers, hkept]
    simp only [ne_eq, not_true_eq_false, if_false, Bool.or_self, Bool.false_eq_true, decide_false]
    rw [← hsettled.role]
  have hread : read F (standalone F config).file (standalone F config).docs =
      .ok ⟨config, defaultSync F, .standalone⟩ := by
    refine read_eq_ok.mpr ⟨?_, ⟨none, rfl, rfl⟩, rfl⟩
    simp only [readConfig, decodeDoc, standalone, F.listeners.decode_encode, F.targetGroups.decode_encode]
    rfl
  refine ⟨hbase.symm ▸ hsettled, ?_, ?_⟩
  · rw [hbase]
    exact ⟨_, hread, rfl, rfl, by simp only [defaultSync]; omega⟩
  · rw [hbase, writeRole, hha]
    rfl

theorem commit_update (hJ : J.NamesBodies) (cfg : FileConfig) (ha : Option GatewayHaRuntimeConfig)
    (config : ProxyConfig) (name : String) (group : TargetGroup) :
    commit J cfg ha config (.targetGroupUpdate name (J.targetGroup.encode group)) = updated cfg name group config := by
  simp only [commit, committed, editOf, hJ name group]
  rfl

theorem commit_delete (cfg : FileConfig) (ha : Option GatewayHaRuntimeConfig) (config : ProxyConfig) (name : String) :
    commit J cfg ha config (.targetGroupDelete name) = deleted name config := rfl

end

/-- A value as the search sees it: a number is its digits, and the keys of an object are not looked at. -/
inductive JsonValue
  | null
  | bool (value : Bool)
  | number (digits : String)
  | string (value : String)
  | array (items : List JsonValue)
  | object (values : List JsonValue)

mutual

def valueContains (needle : String) : JsonValue → Bool
  | .null => false
  | .bool value => containsText (toString value) needle
  | .number digits => containsText digits needle
  | .string value => containsText (toAsciiLowercase value) needle
  | .array items => anyContains needle items
  | .object values => anyContains needle values

def anyContains (needle : String) : List JsonValue → Bool
  | [] => false
  | item :: items => valueContains needle item || anyContains needle items

end

structure PageQuery where
  page : Nat := 1
  perPage : Nat := 20
  q : String := ""
  deriving DecidableEq, Repr

structure Page where
  items : List JsonValue
  total : Nat
  page : Nat
  perPage : Nat

def hex (byte : UInt8) : Option UInt8 := (hexDigit? (Char.ofNat byte.toNat)).map UInt8.ofNat

/-- The loop of `decode_query_value`. -/
def decodeBytes : List UInt8 → List UInt8
  | [] => []
  | byte :: rest =>
    if byte = 43 then 32 :: decodeBytes rest
    else if byte = 37 then
      match rest with
      | hi :: lo :: tail =>
        match hex hi, hex lo with
        | some hi, some lo => (hi <<< 4 ||| lo) :: decodeBytes tail
        | _, _ => byte :: decodeBytes (hi :: lo :: tail)
      | rest => byte :: decodeBytes rest
    else byte :: decodeBytes rest

section

-- `String::from_utf8_lossy`
variable (lossy : List UInt8 → String)

def decodeQueryValue (value : List Char) : String := lossy (decodeBytes (value.flatMap String.utf8EncodeChar))

def PageQuery.read (out : PageQuery) (pair : List Char) : PageQuery :=
  let (key, value) := (splitOnce '=' pair).getD (pair, [])
  if key = "page".toList then { out with page := max ((parseUnsigned (2 ^ 64) value).getD 1) 1 }
  else if key = "per_page".toList then { out with perPage := min (max ((parseUnsigned (2 ^ 64) value).getD 20) 1) 200 }
  else if key = "q".toList then { out with q := toAsciiLowercase (trim (decodeQueryValue lossy value)) }
  else out

def pageQuery (query : String) : PageQuery :=
  ((query.toList.splitOn '&').filter (· ≠ [])).foldl (PageQuery.read lossy) {}

def paginateItems (items : List JsonValue) (page : PageQuery) : Page :=
  let filtered := if page.q = "" then items else items.filter (valueContains page.q)
  let start := min (page.perPage * (page.page - 1)) (2 ^ 64 - 1)
  { items := (filtered.drop start).take page.perPage
    total := filtered.length
    page := page.page
    perPage := page.perPage }

/-- The query of `split_path_query`. -/
def queryOf (path : String) : String :=
  ((splitOnce '?' path.toList).map fun (_, query) => String.ofList query).getD ""

/-- The lists that are given out in pages. -/
def listedPaths : List String :=
  ["/api/target-groups", "/api/listener-configs", "/api/backend-nodes", "/api/automation-templates"]

def listedAt (path : String) : Option String :=
  if !startsWith (splitPathQuery path) "/api/v1/" then none
  else (canonicalPath (splitPathQuery path)).filter (· ∈ listedPaths)

variable (items : String → List JsonValue)

/-- `route` of a GET, where `items` is what the handler of each list has to show. -/
def routeList (path : String) : Option Page :=
  (listedAt path).map fun list => paginateItems (items list) (pageQuery lossy (queryOf path))

/-- `handle` of a GET that is let in. -/
def handleList (url : String) : Option Page := routeList lossy items (splitPathQuery url)

end

def PageQuery.matching (page : PageQuery) (item : JsonValue) : Bool := page.q = "" || valueContains page.q item

theorem paginateItems_filtered (items : List JsonValue) (page : PageQuery) :
    (if page.q = "" then items else items.filter (valueContains page.q)) = items.filter page.matching := by
  split
  · next hq => exact (List.filter_eq_self.mpr fun item _ => by simp [PageQuery.matching, hq]).symm
  · next hq => exact List.filter_congr fun item _ => by simp [PageQuery.matching, hq]

theorem flatMap_take {α : Type} (l : List α) (n k : Nat) :
    ((List.range n).flatMap fun i => (l.drop (i * k)).take k) = l.take (n * k) := by
  induction n with
  | zero => simp
  | succ n ih => rw [List.range_succ, List.flatMap_append, ih, Nat.succ_mul, List.take_add, List.flatMap_singleton]

/-- The pages up to one that reaches the end, put together. -/
theorem pages_join {items : List JsonValue} (hlen : items.length < 2 ^ 64) (page : PageQuery) {n : Nat}
    (hn : (items.filter page.matching).length ≤ n * page.perPage) :
    ((List.range n).flatMap fun i => (paginateItems items { page with page := i + 1 }).items) =
      items.filter page.matching := by
  have hfilter := List.length_filter_le page.matching items
  have hstart : ∀ i, (paginateItems items { page with page := i + 1 }).items =
      ((items.filter page.matching).drop (i * page.perPage)).take page.perPage := by
    intro i
    simp only [paginateItems, paginateItems_filtered, Nat.add_sub_cancel]
    rw [Nat.mul_comm i]
    rcases le_total (page.perPage * i) (2 ^ 64 - 1) with h | h
    · rw [min_eq_left h]
    · -- both are past the end
      rw [min_eq_right h, List.drop_eq_nil_of_le (by omega), List.drop_eq_nil_of_le (by omega)]
  simp only [hstart]
  rw [flatMap_take, List.take_of_length_le hn]

theorem splitOnce_fst {c : Char} {cs before after : List Char} (h : splitOnce c cs = some (before, after)) :
    c ∉ before := by
  induction cs generalizing before with
  | nil => cases h
  | cons x cs ih =>
    rw [splitOnce] at h
    split at h
    · cases h
      exact List.not_mem_nil
    · next hx =>
      obtain ⟨⟨a, b⟩, hrest, heq⟩ := Option.map_eq_some_iff.mp h
      cases heq
      exact List.mem_cons.not.mpr (not_or.mpr ⟨Ne.symm hx, ih hrest⟩)

/-- The path that `handle` passes on has no query left. -/
theorem splitOnce_splitPathQuery (url : String) : splitOnce '?' (splitPathQuery url).toList = none := by
  cases hsplit : splitOnce '?' url.toList with
  | none =>
    rw [splitPathQuery, hsplit]
    exact hsplit
  | some parts =>
    have hpath : splitPathQuery url = String.ofList parts.1 := by
      rw [splitPathQuery, hsplit]
      rfl
    rw [hpath, String.toList_ofList]
    exact splitOnce_eq_none (splitOnce_fst hsplit)

/-- Whatever was asked for, the reply is the first page of twenty. -/
theorem handleList_eq (lossy : List UInt8 → String) (items : String → List JsonValue) {url list : String}
    (hlisted : listedAt url = some list) : handleList lossy items url = some (paginateItems (items list) {}) := by
  have hpath : splitPathQuery (splitPathQuery url) = splitPathQuery url := by
    rw [splitPathQuery, splitOnce_splitPathQuery]
    rfl
  have hquery : queryOf (splitPathQuery url) = "" := by
    rw [queryOf, splitOnce_splitPathQuery]
    rfl
  have hlist : listedAt (splitPathQuery url) = some list := by rw [listedAt, hpath]; exact hlisted
  rw [handleList, routeList, hlist, hquery]
  rfl

end EdgeLb.Api
