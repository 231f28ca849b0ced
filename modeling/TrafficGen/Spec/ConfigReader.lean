import Mathlib.Data.List.Permutation
import TrafficGen.Spec.ConfigBraces
import TrafficGen.Spec.ConfigSchema

/-!
# What a document says

A configuration is read from the values of its members, wherever they are taken from, with
defaults for those that are missing or of the wrong kind. The parser does the same from a text:
on a document whose strings do not disturb it, it reads the value of each member that a search
ends at.
-/

namespace TrafficGen.AppConfig

open Json (Token Renders)
open ConfigParser

/-! ## Reading values -/

/-- The truth value a value is. -/
def readBool : Json → Option Bool
  | .word w => if w = "true" then some true else if w = "false" then some false else none
  | _ => none

/-- The members an object has. -/
def readMembers : Json → Option (List (String × Json))
  | .obj ms => some ms
  | _ => none

/-- A port, with zero for what is missing. -/
def readPort (ms : List (String × Json)) : PortConfig where
  portId := (((ms.lookup "port_id").bind readNat).map UInt64.toUInt16).getD 0
  nbRxQueues := (((ms.lookup "nb_rx_queues").bind readNat).map UInt64.toUInt16).getD 0
  nbTxQueues := (((ms.lookup "nb_tx_queues").bind readNat).map UInt64.toUInt16).getD 0
  nbRxDesc := (((ms.lookup "nb_rx_desc").bind readNat).map UInt64.toUInt16).getD 0
  nbTxDesc := (((ms.lookup "nb_tx_desc").bind readNat).map UInt64.toUInt16).getD 0

/-- A core mapping, with zero for what is missing. -/
def readCoreMapping (ms : List (String × Json)) : CoreMapping where
  coreId := (((ms.lookup "core_id").bind readNat).map UInt64.toUInt32).getD 0
  portId := (((ms.lookup "port_id").bind readNat).map UInt64.toUInt16).getD 0
  queueId := (((ms.lookup "queue_id").bind readNat).map UInt64.toUInt16).getD 0
  enableRx := ((ms.lookup "enable_rx").bind readBool).getD false

/-- The control plane's address, over a default. -/
def readGrpc (d : GRPCConfig) (ms : List (String × Json)) : GRPCConfig where
  listenAddress := ((ms.lookup "listen_address").bind readString).getD d.listenAddress
  port := (((ms.lookup "port").bind readNat).map UInt64.toUInt16).getD d.port

/-- A configuration, over the defaults, from the values of its members. -/
def read (value : String → Option Json) : AppConfig :=
  let d := getDefaultConfig
  { hugepagePath := ((value "hugepage_path").bind readString).getD d.hugepagePath
    numCores := (((value "num_cores").bind readNat).map UInt64.toUInt32).getD d.numCores
    mbufsPerSocket :=
      (((value "mbufs_per_socket").bind readNat).map UInt64.toUInt32).getD d.mbufsPerSocket
    mbufCacheSize :=
      (((value "mbuf_cache_size").bind readNat).map UInt64.toUInt32).getD d.mbufCacheSize
    txBurstSize := (((value "tx_burst_size").bind readNat).map UInt64.toUInt16).getD d.txBurstSize
    rxBurstSize := (((value "rx_burst_size").bind readNat).map UInt64.toUInt16).getD d.rxBurstSize
    ports := ((value "ports").bind readItems).elim d.ports (·.map readPort)
    coreMappings :=
      ((value "core_mappings").bind readItems).elim d.coreMappings (·.map readCoreMapping)
    grpcConfig :=
      ((value "grpc_config").bind readMembers).elim d.grpcConfig (readGrpc d.grpcConfig) }

/-- Only the values of the members of a document are read. -/
theorem read_congr {value value' : String → Option Json}
    (h : ∀ k ∈ topNames, value k = value' k) : read value = read value' := by
  unfold read
  simp only [h "hugepage_path" (by decide), h "num_cores" (by decide),
    h "mbufs_per_socket" (by decide), h "mbuf_cache_size" (by decide),
    h "tx_burst_size" (by decide), h "rx_burst_size" (by decide), h "ports" (by decide),
    h "core_mappings" (by decide), h "grpc_config" (by decide)]

/-! ## Entries of arrays -/

theorem ends_tokensAfter (ms : List (String × Json)) (ts : List Token) :
    Ends (Json.tokensAfter ms ++ ts) := by
  obtain ⟨c, us, hc, heq⟩ := Json.tokensAfter_eq_cons ms
  exact ⟨c, us ++ ts, hc, by rw [heq]; rfl⟩

/-- Where no value is a string, a search ends at the member of that name. -/
theorem target_eq_lookup {k : String} {es : List (String × Json)}
    (hes : ∀ m ∈ es, isStr k m.2 = false) : (target k es).map Prod.snd = es.lookup k := by
  induction es with
  | nil => rfl
  | cons m es ih =>
    rw [List.forall_mem_cons] at hes
    rw [target, List.lookup_cons]
    by_cases hm : m.1 = k
    · rw [if_pos hm]
      simp [hm]
    · rw [if_neg hm, hes.1]
      have : (k == m.1) = false := by simpa using Ne.symm hm
      simpa [this] using ih hes.2

theorem mem_of_lookup {k : String} {v : Json} {ms : List (String × Json)}
    (h : ms.lookup k = some v) : (k, v) ∈ ms := by
  obtain ⟨before, after, rfl, -⟩ := List.lookup_eq_some_iff.mp h
  exact List.mem_append_right before List.mem_cons_self

theorem mem_of_target {k : String} {es : List (String × Json)} {m : String × Json}
    (h : target k es = some m) : m ∈ es := by
  induction es with
  | nil => cases h
  | cons x es ih =>
    rw [target] at h
    split at h
    · exact Option.some.inj h ▸ List.mem_cons_self
    · split at h
      · exact List.mem_cons_of_mem x (List.mem_of_head? h)
      · exact List.mem_cons_of_mem x (ih h)

/-- A search in an entry ends at the member of that name. -/
theorem search_entry {ms : List (String × Json)} (hms : ∀ m ∈ ms, IsWordMember m) {s : List Char}
    (h : Renders (Json.obj ms).tokens s) {k : String} (hk : k ∈ entryNames) :
    Offers (fun _ ts => Ends ts) (findRawValue s k) (target k ms) ∧
      (target k ms).map Prod.snd = ms.lookup k ∧ ∀ m ∈ target k ms, Delimited m.2 := by
  have hname := (isIdent_of_entryNames hk).isName
  have hword : ∀ m ∈ ms, ∃ w, IsWord w ∧ m.2 = .word w := fun m hm => (hms m hm).word
  refine ⟨?_, ?_, ?_⟩
  · have hpass : ∀ m ∈ ms, Passable (fun _ ts => Ends ts) k m := by
      intro m hm
      obtain ⟨w, hw, heq⟩ := hword m hm
      apply passable_of_not_mem hname (isIdent_of_entryNames (hms m hm).name).isName
      · rw [heq]
        rfl
      · intro t ht
        rw [heq] at ht
        cases List.mem_singleton.mp ht
        exact not_mem_of_isWord hw (by decide)
      · intro _ hmem
        rw [heq] at hmem
        cases List.mem_singleton.mp hmem
    have hsearch := searchable_obj hname hpass (searchable_nil hname)
      fun _ _ after _ => ends_tokensAfter after []
    have hentries := @entries_eq_self ms fun m hm => by
      obtain ⟨w, -, heq⟩ := hword m hm
      rw [heq]
      rfl
    rw [hentries, List.append_nil, List.append_nil] at hsearch
    exact hsearch.key h
  · apply target_eq_lookup
    intro m hm
    obtain ⟨w, -, heq⟩ := hword m hm
    rw [heq]
    rfl
  · intro m hm
    obtain ⟨w, hw, heq⟩ := hword m (mem_of_target hm)
    rw [heq]
    exact hw

theorem parsePort_of_renders {ms : List (String × Json)} (hms : ∀ m ∈ ms, IsWordMember m)
    {s : List Char} (h : Renders (Json.obj ms).tokens s) : parsePort s = readPort ms := by
  have hread : ∀ {k}, k ∈ entryNames →
      parseUint UInt64.toUInt16 s k = ((ms.lookup k).bind readNat).map UInt64.toUInt16 := by
    intro k hk
    obtain ⟨hoffers, hlookup, hdelim⟩ := search_entry hms h hk
    rw [parseUint_of_offers hoffers id fun m hm => (hdelim m hm).hasEnd, hlookup]
  unfold parsePort readPort
  simp only [hread (k := "port_id") (by decide), hread (k := "nb_rx_queues") (by decide),
    hread (k := "nb_tx_queues") (by decide), hread (k := "nb_rx_desc") (by decide),
    hread (k := "nb_tx_desc") (by decide)]

theorem parseCoreMapping_of_renders {ms : List (String × Json)}
    (hms : ∀ m ∈ ms, IsWordMember m) {s : List Char} (h : Renders (Json.obj ms).tokens s) :
    parseCoreMapping s = readCoreMapping ms := by
  have hread : ∀ {k}, k ∈ entryNames → ∀ {α : Type} (cut : UInt64 → α),
      parseUint cut s k = ((ms.lookup k).bind readNat).map cut := by
    intro k hk α cut
    obtain ⟨hoffers, hlookup, hdelim⟩ := search_entry hms h hk
    rw [parseUint_of_offers hoffers id fun m hm => (hdelim m hm).hasEnd, hlookup]
  have hrx : parseBool s "enable_rx" = (ms.lookup "enable_rx").bind readBool := by
    obtain ⟨hoffers, hlookup, -⟩ := search_entry hms h (k := "enable_rx") (by decide)
    apply parseBool_of_offers hoffers id
    rw [hlookup]
    cases hvalue : ms.lookup "enable_rx" with
    | none => rfl
    | some v =>
      obtain ⟨b, rfl⟩ := (hms _ (mem_of_lookup hvalue)).enableRx rfl
      cases b
      all_goals rfl
  unfold parseCoreMapping readCoreMapping
  simp only [hread (k := "core_id") (by decide), hread (k := "port_id") (by decide),
    hread (k := "queue_id") (by decide), hrx]

/-! ## Documents -/

/-- No string of the document holds a quote or a backslash. -/
def Verbatim (ms : List (String × Json)) : Prop :=
  ∀ b, .str b ∈ (Json.obj ms).tokens → ∀ d ∈ b.toList, d ≠ '"' ∧ d ≠ '\\'

/-- What stands behind a value: a comma or a brace, and behind an object the members written
    after it. -/
def Stands (ms : List (String × Json)) (v : Json) (ts : List Token) : Prop :=
  Ends ts ∧ ∀ ns, v = .obj ns →
    ∃ before n after, ms = before ++ (n, .obj ns) :: after ∧ ts = Json.tokensAfter after

variable {c : AppConfig} {ms : List (String × Json)} {k : String} {s : List Char}

theorem Verbatim.quote (hms : Verbatim ms) {m : String × Json} (hm : m ∈ ms) :
    ∀ b, .str b ∈ m.2.tokens → '"' ∉ b.toList :=
  fun b hb hquote => (hms b (Json.mem_tokens_of_mem hm hb) '"' hquote).1 rfl

/-- A search in a document ends at its target. -/
theorem search_document (hdoc : c.Document ms) (hverb : Verbatim ms)
    (h : Renders (Json.obj ms).tokens s) (hk : k ∈ topNames ++ grpcNames) :
    Offers (Stands ms) (findRawValue s k) (target k (entries ms)) := by
  have hname := (isIdent_of_searchNames hk).isName
  have hpass : ∀ m ∈ ms, Passable (Stands ms) k m := by
    intro m hm
    apply (hdoc.describes m hm).passable hk (hverb.quote hm)
    intro v us ts hv
    exact ⟨ends_tokensAfter us ts, fun ns hns => absurd hns (hv ns)⟩
  have hsearch := searchable_obj hname hpass (searchable_nil hname) (by
    intro before m after heq
    rw [List.append_nil]
    refine ⟨by simpa using ends_tokensAfter after [], ?_⟩
    intro ns hns
    exact ⟨before, m.1, after, by rw [heq, ← hns], rfl⟩)
  rw [List.append_nil, List.append_nil] at hsearch
  exact hsearch.key h

/-! ## The control plane's object -/

/-- The address closes the braces it opens, or leaves one open where the path holds none. -/
def BracesClosed (c : AppConfig) (names : List String) : Prop :=
  "grpc_config" ∈ names →
    bracesAfter 1 c.grpcConfig.listenAddress.toList = some 1 ∨
    bracesAfter 1 c.grpcConfig.listenAddress.toList = some 2 ∧
      ("hugepage_path" ∈ names → '{' ∉ c.hugepagePath.toList ∧ '}' ∉ c.hugepagePath.toList)

/-- The two members stand in one order or the other. -/
theorem GRPCConfig.perm_members {g : GRPCConfig} {ns : List (String × Json)}
    (hns : ns.Perm g.members) :
    ns = [("listen_address", .str g.listenAddress), ("port", .nat g.port.toNat)] ∨
      ns = [("port", .nat g.port.toNat), ("listen_address", .str g.listenAddress)] :=
  List.perm_pair.mp hns

theorem flat_port (n : Nat) : Flat [("port", .nat n)] := by
  have hname : '{' ∉ "port".toList ∧ '}' ∉ "port".toList := by decide
  unfold Flat
  rw [List.forall_mem_singleton]
  refine ⟨hname.1, hname.2, ?_⟩
  intro t ht
  cases List.mem_singleton.mp ht
  exact ⟨not_mem_of_isWord (isWord_repr n) (by decide),
    not_mem_of_isWord (isWord_repr n) (by decide)⟩

/-- The parts of a text of the control plane's object. -/
theorem exists_grpcParts {g : GRPCConfig} {ns : List (String × Json)} (hns : ns.Perm g.members)
    {us : List Token} (h : Renders ((Json.obj ns).tokens ++ us) s) :
    ∃ before after, ns = before ++ ("listen_address", .str g.listenAddress) :: after ∧
      (before = [] ∨ before = [("port", .nat g.port.toNat)]) ∧
      ∃ ws x y r, StringParts before "listen_address" g.listenAddress after us s ws x y r := by
  have hname : '{' ∉ "listen_address".toList ∧ '}' ∉ "listen_address".toList := by decide
  have hnil : Flat [] := List.forall_mem_nil _
  cases GRPCConfig.perm_members hns with
  | inl heq =>
    subst heq
    exact ⟨[], _, rfl, .inl rfl, exists_stringParts hnil (flat_port _) hname h⟩
  | inr heq =>
    subst heq
    exact ⟨[_], [], rfl, .inr rfl, exists_stringParts (flat_port _) hnil hname h⟩

/-- Members other than the control plane's object close the braces they open. -/
theorem Describes.braceNeutral {m : String × Json} (h : c.Describes m) (hobj : ∀ ns, m.2 ≠ .obj ns)
    (hpath : m.1 = "hugepage_path" → '{' ∉ c.hugepagePath.toList ∧ '}' ∉ c.hugepagePath.toList) :
    BraceNeutral m.2.tokens := by
  have hnat : ∀ n, BraceNeutral (Json.nat n).tokens := by
    intro n
    apply braceNeutral_of_not_mem
    intro t ht
    cases List.mem_singleton.mp ht
    exact ⟨not_mem_of_isWord (isWord_repr n) (by decide),
      not_mem_of_isWord (isWord_repr n) (by decide)⟩
  cases h with
  | hugepagePath =>
    apply braceNeutral_of_not_mem
    intro t ht
    cases List.mem_singleton.mp ht
    simpa [Token.chars] using hpath rfl
  | ports hos =>
    apply braceNeutral_arr
    intro ns hns
    exact flat_of_isWordMember (forall_mem_of_forall₂_perm PortConfig.isWordMember hos ns hns)
  | coreMappings hos =>
    apply braceNeutral_arr
    intro ns hns
    exact flat_of_isWordMember (forall_mem_of_forall₂_perm CoreMapping.isWordMember hos ns hns)
  | grpcConfig hns => exact absurd rfl (hobj _)
  | _ => exact hnat _

/-- Only the control plane's object is an object. -/
theorem Describes.name_of_obj {n : String} {ns : List (String × Json)}
    (h : c.Describes (n, .obj ns)) : n = "grpc_config" ∧ ns.Perm c.grpcConfig.members := by
  generalize hv : Json.obj ns = v at h
  cases h with
  | grpcConfig hns =>
    cases hv
    exact ⟨rfl, hns⟩
  | _ => cases hv

theorem tokensAfter_eq (after : List (String × Json)) :
    Json.tokensAfter after = memberRun after ++ [.punct '}'] := rfl

/-- The members behind the control plane's object close the braces they open. -/
theorem Document.braceNeutral_after (hdoc : c.Document ms) {before after : List (String × Json)}
    {v : Json} (heq : ms = before ++ ("grpc_config", v) :: after)
    (hpath : "hugepage_path" ∈ ms.map Prod.fst →
      '{' ∉ c.hugepagePath.toList ∧ '}' ∉ c.hugepagePath.toList) :
    BraceNeutral (memberRun after) := by
  unfold memberRun
  apply BraceNeutral.flatMap
  rw [Json.memberTokens_eq_map]
  intro ts hts
  obtain ⟨m, hm, rfl⟩ := List.mem_map.mp hts
  have hmem : m ∈ ms := heq ▸ List.mem_append_right _ (List.mem_cons_of_mem _ hm)
  have hname : m.1 ≠ "grpc_config" := by
    have hnodup := hdoc.nodup
    rw [heq, List.map_append, List.map_cons] at hnodup
    have := (List.nodup_cons.mp (List.nodup_append.mp hnodup).2.1).1
    exact fun hname => this (List.mem_map.mpr ⟨m, hm, hname⟩)
  have hdesc := hdoc.describes m hmem
  have hident := isIdent_of_searchNames (List.mem_append_left grpcNames hdesc.name)
  have hfront : BraceNeutral [.punct ',', .str m.1, .punct ':'] := by
    apply braceNeutral_of_not_mem
    have hopen : '{' ∉ m.1.toList := hident.not_mem (by decide) (by decide)
    have hclose : '}' ∉ m.1.toList := hident.not_mem (by decide) (by decide)
    simpa [Token.chars] using ⟨hopen, hclose⟩
  apply hfront.append
  apply hdesc.braceNeutral ?_ (fun hmp => hpath (hmp ▸ List.mem_map_of_mem hmem))
  intro ns hobj
  rw [show m = (m.1, .obj ns) from hobj ▸ rfl] at hdesc
  exact hname hdesc.name_of_obj.1

/-- What the parser takes for the control plane's object: the object, or the object with all that
    the document holds behind it. -/
theorem rawValue_grpc (hdoc : c.Document ms) (hverb : Verbatim ms)
    (hbraces : c.BracesClosed (ms.map Prod.fst)) {before ns after : List (String × Json)}
    (heq : ms = before ++ ("grpc_config", .obj ns) :: after) {rest : List Char}
    (h : Renders ((Json.obj ns).tokens ++ Json.tokensAfter after) rest) :
    (rawValue rest).head? = some '{' ∧
      ∃ us es, Renders ((Json.obj ns).tokens ++ us) (rawValue rest) ∧
        ∀ k ∈ grpcNames, Searchable (fun _ ts => Ends ts) k us es := by
  have hmem : ("grpc_config", .obj ns) ∈ ms := heq ▸ List.mem_append_right _ List.mem_cons_self
  obtain ⟨-, hns⟩ := (hdoc.describes _ hmem).name_of_obj
  obtain ⟨xs, ys, hxy, -, ws, x, y, r, hparts⟩ := exists_grpcParts hns h
  subst hxy
  cases hbraces (List.mem_map_of_mem hmem) with
  | inl hclosed =>
    obtain ⟨hobj, hhead⟩ := hparts.rawValue_closed hclosed
    refine ⟨hhead, [], [], ?_, fun k hk => searchable_nil ?_⟩
    · rwa [List.append_nil]
    · exact (isIdent_of_searchNames (List.mem_append_right _ hk)).isName
  | inr hopen =>
    have hafter : ∀ m ∈ after, m ∈ ms := fun m hm =>
      heq ▸ List.mem_append_right _ (List.mem_cons_of_mem _ hm)
    have hneutral := hdoc.braceNeutral_after heq hopen.2
    obtain ⟨hobj, hhead⟩ := hparts.rawValue_open hopen.1 hneutral (tokensAfter_eq after)
    refine ⟨hhead, Json.tokensAfter after, entries after, hobj, fun k hk => ?_⟩
    have hk' := List.mem_append_right topNames hk
    have hname := (isIdent_of_searchNames hk').isName
    have hpass : ∀ m ∈ after, Passable (fun _ ts => Ends ts) k m := by
      intro m hm
      apply (hdoc.describes m (hafter m hm)).passable hk' (hverb.quote (hafter m hm))
      exact fun _ => ends_tokensAfter _ _
    have hends : ∀ us, Ends (Json.tokensAfter us) := by
      intro us
      have := ends_tokensAfter us []
      rwa [List.append_nil] at this
    have hend := (searchable_nil (P := fun _ ts => Ends ts) hname).punct hname (c := '}')
      (by decide) (by decide)
    have hrun := (searchable_memberRun hname hpass hend (followsAny_punct (by decide) [])
      fun _ _ after' _ => hends after').1
    rwa [List.append_nil] at hrun

/-- What a search is after in the control plane's object is its member of that name. -/
theorem target_grpc {g : GRPCConfig} {ns : List (String × Json)} (hns : ns.Perm g.members)
    {k : String} (hk : k ∈ grpcNames) (es : List (String × Json)) :
    ∃ m ∈ ns, target k (ns ++ es) = some m ∧ ns.lookup k = some m.2 := by
  have hport : ∃ m ∈ ns, target "port" (ns ++ es) = some m ∧
      ns.lookup "port" = some m.2 := by
    refine ⟨("port", .nat g.port.toNat), hns.mem_iff.mpr (by simp [GRPCConfig.members]), ?_⟩
    cases GRPCConfig.perm_members hns with
    | inl heq => exact heq ▸ ⟨by simp [target], rfl⟩
    | inr heq => exact heq ▸ ⟨by simp [target], rfl⟩
  have haddr : ∃ m ∈ ns, target "listen_address" (ns ++ es) = some m ∧
      ns.lookup "listen_address" = some m.2 := by
    refine ⟨("listen_address", .str g.listenAddress),
      hns.mem_iff.mpr (by simp [GRPCConfig.members]), ?_⟩
    cases GRPCConfig.perm_members hns with
    | inl heq => exact heq ▸ ⟨by simp [target], rfl⟩
    | inr heq => exact heq ▸ ⟨by simp [target, isStr, Json.nat], rfl⟩
  cases List.mem_pair.mp hk with
  | inl heq => exact heq ▸ haddr
  | inr heq => exact heq ▸ hport

/-- A search in what is taken for the control plane's object ends at the member of that name. -/
theorem search_grpc {g : GRPCConfig} {ns : List (String × Json)} (hns : ns.Perm g.members)
    (haddress : ∀ d ∈ g.listenAddress.toList, d ≠ '"' ∧ d ≠ '\\') {us : List Token}
    {es : List (String × Json)} (hk : k ∈ grpcNames)
    (hsearch : Searchable (fun _ ts => Ends ts) k us es)
    (h : Renders ((Json.obj ns).tokens ++ us) s) :
    Offers (fun _ ts => Ends ts) (findRawValue s k) (target k (ns ++ es)) ∧
      (target k (ns ++ es)).map Prod.snd = ns.lookup k ∧
      ∀ m ∈ target k (ns ++ es), Delimited m.2 := by
  have hgrpc : ∀ n ∈ grpcNames, IsName n := fun n hn =>
    (isIdent_of_searchNames (List.mem_append_right topNames hn)).isName
  have hmem : ∀ x ∈ ns, x = ("listen_address", .str g.listenAddress) ∨
      x = ("port", .nat g.port.toNat) := by
    intro x hx
    rwa [hns.mem_iff, GRPCConfig.members, List.mem_pair] at hx
  have hinner : ∀ x ∈ ns, membersOf x.2 = [] := by
    intro x hx
    cases hmem x hx with
    | inl heq => subst heq; rfl
    | inr heq => subst heq; rfl
  have hpass : ∀ x ∈ ns, Passable (fun _ ts => Ends ts) k x := by
    intro x hx
    cases hmem x hx with
    | inl heq =>
      subst heq
      exact passable_str (hgrpc k hk) (hgrpc _ (by decide)) fun hquote => (haddress _ hquote).1 rfl
    | inr heq =>
      subst heq
      exact passable_nat (hgrpc k hk) (hgrpc _ (by decide)) _
  obtain ⟨m, hm, heq, hlookup⟩ := target_grpc hns hk es
  refine ⟨?_, ?_, ?_⟩
  · have hobj := searchable_obj (hgrpc k hk) hpass hsearch fun _ _ after _ =>
      ends_tokensAfter after us
    rw [entries_eq_self hinner] at hobj
    exact hobj.key h
  · rw [heq, hlookup, Option.map_some]
  · rw [heq]
    intro x hx
    cases Option.mem_some.mp hx
    cases hmem m hm with
    | inl heq => subst heq; exact haddress
    | inr heq => subst heq; exact isWord_repr _

/-- The control plane's object is read. -/
theorem parseGrpc_of_renders {g : GRPCConfig} {ns : List (String × Json)} (hns : ns.Perm g.members)
    (haddress : ∀ d ∈ g.listenAddress.toList, d ≠ '"' ∧ d ≠ '\\') {us : List Token}
    {es : List (String × Json)}
    (hsearch : ∀ k ∈ grpcNames, Searchable (fun _ ts => Ends ts) k us es)
    (h : Renders ((Json.obj ns).tokens ++ us) s) (d : GRPCConfig) :
    { listenAddress := (parseString s "listen_address").getD d.listenAddress
      port := (parseUint UInt64.toUInt16 s "port").getD d.port : GRPCConfig } = readGrpc d ns := by
  have haddr := search_grpc hns haddress (k := "listen_address") (by decide)
    (hsearch _ (by decide)) h
  have hport := search_grpc hns haddress (k := "port") (by decide) (hsearch _ (by decide)) h
  unfold readGrpc
  rw [parseString_of_offers haddr.1 haddr.2.2,
    parseUint_of_offers hport.1 id fun m hm => (hport.2.2 m hm).hasEnd, haddr.2.1, hport.2.1]

/-! ## The whole document -/

/-- The value of each member is one whose end the parser sees. -/
theorem Describes.delimited {m : String × Json} (h : c.Describes m)
    (hstr : ∀ b, m.2 = .str b → ∀ d ∈ b.toList, d ≠ '"' ∧ d ≠ '\\') : Delimited m.2 := by
  obtain ⟨n, v⟩ := m
  match h.value with
  | .inl ⟨x, hx⟩ => exact hx ▸ isWord_repr x
  | .inr (.inl hv) =>
    have := hstr _ hv
    rw [hv]
    exact this
  | .inr (.inr (.inl ⟨os, hv, hos⟩)) =>
    rw [hv]
    intro v hv t ht
    obtain ⟨ns, hns, rfl⟩ := List.mem_map.mp hv
    have := not_mem_chars_of_entry (hos ns hns) ht
    exact ⟨this.1, this.2.1⟩
  | .inr (.inr (.inr ⟨ns, hv, _⟩)) =>
    rw [hv]
    trivial

/-- What a search in a document can end at: values whose ends the parser sees, and arrays of
    entries. -/
theorem entries_readable (hdoc : c.Document ms) (hverb : Verbatim ms) :
    ∀ m ∈ entries ms, Delimited m.2 ∧ ∀ vs, m.2 = .arr vs →
      ∃ os : List (List (String × Json)), vs = os.map .obj ∧
        ∀ ns ∈ os, ∀ x ∈ ns, IsWordMember x := by
  intro m hm
  unfold entries at hm
  obtain ⟨x, hx, hm⟩ := List.mem_flatMap.mp hm
  have hdesc := hdoc.describes x hx
  have hstr : ∀ b, .str b ∈ x.2.tokens → ∀ d ∈ b.toList, d ≠ '"' ∧ d ≠ '\\' :=
    fun b hb => hverb b (Json.mem_tokens_of_mem hx hb)
  cases List.mem_cons.mp hm with
  | inl heq =>
    subst heq
    refine ⟨hdesc.delimited fun b hb => hstr b (hb ▸ List.mem_cons_self), ?_⟩
    intro vs hvs
    match hdesc.value with
    | .inl ⟨n, hn⟩ => cases hvs.symm.trans hn
    | .inr (.inl hpath) => cases hvs.symm.trans hpath
    | .inr (.inr (.inl ⟨os, hos, hword⟩)) => exact ⟨os, Json.arr.inj (hvs.symm.trans hos), hword⟩
    | .inr (.inr (.inr ⟨ns, hns, _⟩)) => cases hvs.symm.trans hns
  | inr hinner =>
    obtain ⟨n, v⟩ := x
    cases v with
    | obj ns =>
      have hmem := hdesc.name_of_obj.2.mem_iff.mp hinner
      rw [GRPCConfig.members, List.mem_pair] at hmem
      cases hmem with
      | inl heq =>
        subst heq
        exact ⟨hstr _ (Json.mem_tokens_of_mem hinner List.mem_cons_self), by simp⟩
      | inr heq =>
        subst heq
        exact ⟨isWord_repr _, by simp [Json.nat]⟩
    | _ => exact absurd hinner List.not_mem_nil

/-- The control plane's object is read where a search for it ends. -/
theorem parseGrpcConfig_of_offers (hdoc : c.Document ms) (hverb : Verbatim ms)
    (hbraces : c.BracesClosed (ms.map Prod.fst)) {t : Option (String × Json)} {raw : List Char}
    (h : Offers (Stands ms) raw t) (ht : ∀ m ∈ t, m ∈ entries ms) (d : GRPCConfig) :
    (if raw.head? = some '{' then
      { listenAddress := (parseString raw "listen_address").getD d.listenAddress
        port := (parseUint UInt64.toUInt16 raw "port").getD d.port : GRPCConfig }
    else d) = ((t.map Prod.snd).bind readMembers).elim d (readGrpc d) := by
  cases h with
  | none => rfl
  | @some n v ts rest hstands hrest =>
    have hother : ∀ c, firstChar v = some c → isSpace c = false → c ≠ '{' →
        (rawValue rest).head? ≠ some '{' :=
      fun c hc hspace hbrace => head?_rawValue_ne hc hspace hbrace hrest
    have hreadable := (entries_readable hdoc hverb _ (ht _ rfl)).1
    cases v with
    | str body => exact if_neg (hother '"' rfl (by decide) (by decide))
    | arr vs => exact if_neg (hother '[' rfl (by decide) (by decide))
    | word w =>
      obtain ⟨hne, hw⟩ := hreadable
      cases hlist : w.toList with
      | nil => exact absurd hlist hne
      | cons c cs =>
        have hc := hw c (hlist ▸ List.mem_cons_self)
        exact if_neg (hother c (by simp [firstChar, hlist]) (isSpace_of_isAlphanum hc)
          (ne_of_isAlphanum hc (by decide)))
    | obj ns =>
      obtain ⟨before, n', after, heq, rfl⟩ := hstands.2 ns rfl
      have hmem : (n', .obj ns) ∈ ms := heq ▸ List.mem_append_right _ List.mem_cons_self
      obtain ⟨rfl, hns⟩ := (hdoc.describes _ hmem).name_of_obj
      obtain ⟨hhead, us, es, hobj, hsearch⟩ := rawValue_grpc hdoc hverb hbraces heq hrest
      have haddress : ∀ d ∈ c.grpcConfig.listenAddress.toList, d ≠ '"' ∧ d ≠ '\\' := by
        apply hverb
        apply Json.mem_tokens_of_mem hmem
        apply Json.mem_tokens_of_mem (m := ("listen_address", .str c.grpcConfig.listenAddress))
        · exact hns.mem_iff.mpr (by simp [GRPCConfig.members])
        · exact List.mem_cons_self
      rw [if_pos hhead]
      exact parseGrpc_of_renders hns haddress hsearch hobj d

/-- A document whose strings hold no quote and no backslash, and close their braces, is read from
    the members that the searches end at. -/
theorem parseFromString_eq_read (hdoc : c.Document ms) (hverb : Verbatim ms)
    (hbraces : c.BracesClosed (ms.map Prod.fst)) {jsonStr : String}
    (h : Renders (Json.obj ms).tokens jsonStr.toList) :
    parseFromString jsonStr = some (read fun k => (target k (entries ms)).map Prod.snd) := by
  have hsearch : ∀ {k}, k ∈ topNames →
      Offers (Stands ms) (findRawValue jsonStr.toList k) (target k (entries ms)) :=
    fun hk => search_document hdoc hverb h (List.mem_append_left _ hk)
  have hends : ∀ {v ts}, Stands ms v ts → Ends ts := fun h => h.1
  have hreadable : ∀ k, ∀ m ∈ target k (entries ms), Delimited m.2 :=
    fun k m hm => (entries_readable hdoc hverb m (mem_of_target hm)).1
  have hstring : parseString jsonStr.toList "hugepage_path" = _ :=
    parseString_of_offers (hsearch (by decide)) (hreadable _)
  have hnat : ∀ {k}, k ∈ topNames → ∀ {α : Type} (cut : UInt64 → α),
      parseUint cut jsonStr.toList k =
        (((target k (entries ms)).map Prod.snd).bind readNat).map cut :=
    fun hk _ cut => parseUint_of_offers (hsearch hk) hends
      (fun m hm => (hreadable _ m hm).hasEnd) cut
  have hitems : ∀ k, ∀ m ∈ target k (entries ms), ∀ vs, m.2 = .arr vs →
      ∃ os : List (List (String × Json)), vs = os.map .obj ∧
        ∀ ns ∈ os, ∀ x ∈ ns, IsWordMember x :=
    fun k m hm => (entries_readable hdoc hverb m (mem_of_target hm)).2
  unfold parseFromString read
  simp only [Option.some.injEq, AppConfig.mk.injEq]
  refine ⟨?_, ?_, ?_, ?_, ?_, ?_, ?_, ?_, ?_⟩
  · rw [hstring]
  · rw [hnat (by decide)]
  · exact parseItems_of_offers (hsearch (by decide)) (fun m hm => (hreadable _ m hm).hasEnd)
      flat_of_isWordMember (hitems _) (fun hword hs => parsePort_of_renders hword hs) _
  · exact parseItems_of_offers (hsearch (by decide)) (fun m hm => (hreadable _ m hm).hasEnd)
      flat_of_isWordMember (hitems _) (fun hword hs => parseCoreMapping_of_renders hword hs) _
  · exact parseGrpcConfig_of_offers hdoc hverb hbraces (hsearch (by decide))
      (fun m hm => mem_of_target hm) _
  all_goals rw [hnat (by decide)]

end TrafficGen.AppConfig
