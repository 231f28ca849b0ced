import TrafficGen.Spec.ConfigLiterals

/-!
# Members left out of the ports

A text of the schema and the same text without some members of its ports. A port starts from zero
in every field, and a port without descriptors or without queues is refused; so a text that is
accepted stays so only when its ports keep what is checked, or are not what is read as the ports.

## Key results

- `accepted_iff`: a text of the schema is accepted for the values that the searches end at
- `accepted_iff_of_omits`: what the ports of an accepted text must keep
-/

namespace TrafficGen.AppConfig

open Json (Token Renders Encodes)
open ConfigParser

/-! ## The schema -/

/-- The names of the members of a port. -/
def portNames : List String :=
  ["port_id", "nb_rx_queues", "nb_tx_queues", "nb_rx_desc", "nb_tx_desc"]

/-- The names of the top-level members that are numbers. -/
def numberNames : List String :=
  ["num_cores", "mbufs_per_socket", "mbuf_cache_size", "tx_burst_size", "rx_burst_size"]

/-- An entry of the ports array, with any of its members. -/
structure IsPort (ns : List (String × Json)) : Prop where
  nodup : (ns.map Prod.fst).Nodup
  member : ∀ m ∈ ns, m.1 ∈ portNames ∧ ∃ x, m.2 = .nat x

/-- An entry of the core mappings array, with any of its members. -/
structure IsMapping (ns : List (String × Json)) : Prop where
  nodup : (ns.map Prod.fst).Nodup
  member : ∀ m ∈ ns, (m.1 ∈ ["core_id", "port_id", "queue_id"] ∧ ∃ x, m.2 = .nat x) ∨
    m.1 = "enable_rx" ∧ ∃ b, m.2 = .bool b

/-- The control plane's object, with any of its members. -/
structure IsControl (ns : List (String × Json)) : Prop where
  nodup : (ns.map Prod.fst).Nodup
  member : ∀ m ∈ ns,
    (m.1 = "listen_address" ∧ ∃ (body : String) (s : List Char),
      m.2 = .str body ∧ Encodes body.toList s) ∨
    m.1 = "port" ∧ ∃ x, m.2 = .nat x

/-- A top-level member of the schema. -/
inductive InSchema : String × Json → Prop
  | path {body : String} {s : List Char} (hbody : Encodes body.toList s) :
      InSchema ("hugepage_path", .str body)
  | number {n : String} {x : Nat} (hn : n ∈ numberNames) : InSchema (n, .nat x)
  | ports {os : List (List (String × Json))} (hos : ∀ ns ∈ os, IsPort ns) :
      InSchema ("ports", .arr (os.map .obj))
  | coreMappings {os : List (List (String × Json))} (hos : ∀ ns ∈ os, IsMapping ns) :
      InSchema ("core_mappings", .arr (os.map .obj))
  | grpcConfig {ns : List (String × Json)} (hns : IsControl ns) :
      InSchema ("grpc_config", .obj ns)

/-- The members of an object of the schema, any of them left out and in any order. -/
structure InSchemaAll (ms : List (String × Json)) : Prop where
  nodup : (ms.map Prod.fst).Nodup
  member : ∀ m ∈ ms, InSchema m

/-- The text is parsed to a configuration that is valid. -/
def Accepted (jsonStr : String) : Prop :=
  ∃ config, parseFromString jsonStr = some config ∧ validateConfig config = true

/-! ## Searching a text of the schema -/

theorem IsPort.isWordMember {ns : List (String × Json)} (h : IsPort ns) :
    ∀ m ∈ ns, IsWordMember m := by
  have hnames : ∀ k ∈ portNames, k ∈ entryNames ∧ k ≠ "enable_rx" := by decide
  intro m hm
  obtain ⟨k, v⟩ := m
  obtain ⟨hk, x, rfl⟩ := h.member _ hm
  exact isWordMember_nat (hnames k hk) x

theorem IsMapping.isWordMember {ns : List (String × Json)} (h : IsMapping ns) :
    ∀ m ∈ ns, IsWordMember m := by
  have hnames : ∀ k ∈ ["core_id", "port_id", "queue_id"], k ∈ entryNames ∧ k ≠ "enable_rx" := by
    decide
  intro m hm
  obtain ⟨k, v⟩ := m
  match h.member _ hm with
  | .inl ⟨hk, x, hv⟩ =>
    cases hv
    exact isWordMember_nat (hnames k hk) x
  | .inr ⟨hk, b, hv⟩ => exact ⟨hk ▸ by decide, ⟨_, isWord_bool b, hv⟩, fun _ => ⟨b, hv⟩⟩

theorem IsControl.leaf {ns : List (String × Json)} (h : IsControl ns) :
    ∀ m ∈ ns, membersOf m.2 = [] := by
  intro m hm
  match h.member m hm with
  | .inl ⟨_, _, _, hv, _⟩ => rw [hv]; rfl
  | .inr ⟨_, _, hv⟩ => rw [hv]; rfl

/-- The value of a member: a literal, a number, an array of entries, or the control plane's
    object. -/
theorem InSchema.value {m : String × Json} (h : InSchema m) :
    (∃ (body : String) (s : List Char), m.2 = .str body ∧ Encodes body.toList s) ∨
    (∃ x, m.2 = .nat x) ∨
    (∃ os : List (List (String × Json)), m.2 = .arr (os.map .obj) ∧
      ∀ ns ∈ os, ∀ x ∈ ns, IsWordMember x) ∨
    ∃ ns, m.2 = .obj ns ∧ IsControl ns := by
  cases h with
  | path hbody => exact .inl ⟨_, _, rfl, hbody⟩
  | number => exact .inr (.inl ⟨_, rfl⟩)
  | ports hos => exact .inr (.inr (.inl ⟨_, rfl, fun ns hns => (hos ns hns).isWordMember⟩))
  | coreMappings hos => exact .inr (.inr (.inl ⟨_, rfl, fun ns hns => (hos ns hns).isWordMember⟩))
  | grpcConfig hns => exact .inr (.inr (.inr ⟨_, rfl, hns⟩))

theorem InSchema.name {m : String × Json} (h : InSchema m) : m.1 ∈ topNames := by
  cases h with
  | number hn => exact (by decide : ∀ n ∈ numberNames, n ∈ topNames) _ hn
  | _ => simp [topNames]

theorem InSchema.layable {m : String × Json} (h : InSchema m) : Layable m := by
  obtain ⟨n, v⟩ := m
  match h.value with
  | .inl ⟨body, _, hv, _⟩ =>
    cases hv
    exact layable_leaf rfl
  | .inr (.inl ⟨x, hv⟩) =>
    cases hv
    exact layable_leaf rfl
  | .inr (.inr (.inl ⟨os, hv, _⟩)) =>
    cases hv
    exact layable_leaf rfl
  | .inr (.inr (.inr ⟨ns, hv, hns⟩)) =>
    cases hv
    exact layable_obj hns.leaf

theorem isLiteralName_of_topNames {k : String} (hk : k ∈ topNames) : IsLiteralName k := by
  have hident := isIdent_of_searchNames (List.mem_append_left grpcNames hk)
  exact ⟨hident.isName, hident.not_mem (by decide) (by decide)⟩

theorem passes_literal {k body : String} {s : List Char} (h : Encodes body.toList s) :
    Passes k (.str body) :=
  escaped_of_encodes h '"'

theorem passes_nat {k : String} (x : Nat) : Passes k (.nat x) := by
  intro t ht
  cases List.mem_singleton.mp ht
  exact ⟨not_mem_of_isWord (isWord_repr x) (by decide), fun h => by cases h⟩

/-- What a search meets: the top-level members, and the control plane's. -/
theorem InSchemaAll.mem_entries {ms : List (String × Json)} (hms : InSchemaAll ms)
    {m : String × Json} (hm : m ∈ entries ms) : m ∈ ms ∨ m.1 ∈ grpcNames ∧
      ((∃ (body : String) (s : List Char), m.2 = .str body ∧ Encodes body.toList s) ∨
        ∃ x, m.2 = .nat x) := by
  unfold entries at hm
  obtain ⟨x, hx, hm⟩ := List.mem_flatMap.mp hm
  cases List.mem_cons.mp hm with
  | inl heq => exact .inl (heq ▸ hx)
  | inr hinner =>
    match (hms.member x hx).value with
    | .inl ⟨_, _, hv, _⟩ => rw [hv] at hinner; exact absurd hinner List.not_mem_nil
    | .inr (.inl ⟨_, hv⟩) => rw [hv] at hinner; exact absurd hinner List.not_mem_nil
    | .inr (.inr (.inl ⟨_, hv, _⟩)) => rw [hv] at hinner; exact absurd hinner List.not_mem_nil
    | .inr (.inr (.inr ⟨ns, hv, hns⟩)) =>
      rw [hv] at hinner
      match hns.member m hinner with
      | .inl ⟨hn, hbody⟩ => exact .inr ⟨hn ▸ by decide, .inl hbody⟩
      | .inr ⟨hn, hx⟩ => exact .inr ⟨hn ▸ by decide, .inr hx⟩

/-- The braces of an empty object. -/
theorem passes_nil (k : String) : Passes k (.obj []) := by
  intro t ht
  have hbraces : t = .punct '{' ∨ t = .punct '}' := by
    simpa [Json.tokens, Json.memberTokens, List.intercalate] using ht
  rcases hbraces with rfl | rfl
  all_goals simp [Token.inner]

/-- A search passes the value of each member that has no members itself, and the parser sees where
    the value ends. -/
theorem InSchema.passes {m : String × Json} (h : InSchema m) {k : String} (hk : k ∈ topNames) :
    (membersOf m.2 = [] → Passes k m.2) ∧ HasEnd m.2 := by
  match h.value with
  | .inl ⟨body, s, hv, hbody⟩ =>
    rw [hv]
    exact ⟨fun _ => passes_literal hbody, trivial⟩
  | .inr (.inl ⟨x, hv⟩) =>
    rw [hv]
    exact ⟨fun _ => passes_nat x, isWord_repr x⟩
  | .inr (.inr (.inl ⟨os, hv, hos⟩)) =>
    rw [hv]
    have hdisjoint : ∀ k ∈ topNames, k ∉ entryNames := by decide
    refine ⟨fun _ t ht => ?_, ?_⟩
    · obtain ⟨hquote, hne⟩ := not_mem_tokens_items hos ht
      exact ⟨hquote, hne k (hdisjoint k hk)⟩
    · intro v hv t ht
      obtain ⟨ns, hns, rfl⟩ := List.mem_map.mp hv
      have := not_mem_chars_of_entry (hos ns hns) ht
      exact ⟨this.1, this.2.1⟩
  | .inr (.inr (.inr ⟨ns, hv, hns⟩)) =>
    rw [hv]
    refine ⟨fun hnil => ?_, trivial⟩
    obtain rfl : ns = [] := hnil
    exact passes_nil k

theorem InSchemaAll.passes {ms : List (String × Json)} (hms : InSchemaAll ms) {k : String}
    (hk : k ∈ topNames) {m : String × Json} (hm : m ∈ entries ms) :
    IsName m.1 ∧ (membersOf m.2 = [] → Passes k m.2) ∧ HasEnd m.2 := by
  cases hms.mem_entries hm with
  | inl h =>
    have hschema := hms.member m h
    exact ⟨(isLiteralName_of_topNames hschema.name).1, hschema.passes hk⟩
  | inr h =>
    refine ⟨(isIdent_of_searchNames (List.mem_append_right topNames h.1)).isName, ?_⟩
    match h.2 with
    | .inl ⟨body, s, hv, hbody⟩ =>
      rw [hv]
      exact ⟨fun _ => passes_literal hbody, trivial⟩
    | .inr ⟨x, hv⟩ =>
      rw [hv]
      exact ⟨fun _ => passes_nat x, isWord_repr x⟩

/-- A search in a text of the schema ends at the member it seeks. -/
theorem InSchemaAll.search {ms : List (String × Json)} (hms : InSchemaAll ms) {k : String}
    (hk : k ∈ topNames) {s : List Char} (h : Renders (Json.obj ms).tokens s) :
    Offers (fun _ ts => Ends ts) (findRawValue s k) (sought k (entries ms)) := by
  have hlaid := laid_obj (fun m hm => (hms.member m hm).layable) .nil
  rw [List.append_nil, List.append_nil] at hlaid
  apply hlaid.offers (isLiteralName_of_topNames hk) _ h
  intro m hm
  obtain ⟨hname, hpasses, -⟩ := hms.passes hk hm
  exact ⟨hname, hpasses⟩

theorem mem_of_sought {k : String} {es : List (String × Json)} {m : String × Json}
    (h : sought k es = some m) : m ∈ es := by
  induction es with
  | nil => cases h
  | cons x es ih =>
    rw [sought] at h
    split at h
    · exact Option.some.inj h ▸ List.mem_cons_self
    · split at h
      · exact List.mem_cons_of_mem x (List.mem_of_head? h)
      · exact List.mem_cons_of_mem x (ih h)

/-- An array that a search ends at is one of entries. -/
theorem InSchemaAll.items {ms : List (String × Json)} (hms : InSchemaAll ms) {m : String × Json}
    (hm : m ∈ entries ms) {vs : List Json} (hvs : m.2 = .arr vs) :
    ∃ os : List (List (String × Json)), vs = os.map .obj ∧
      ∀ ns ∈ os, ∀ x ∈ ns, IsWordMember x := by
  cases hms.mem_entries hm with
  | inl h =>
    match (hms.member m h).value with
    | .inl ⟨_, _, hv, _⟩ => cases hvs.symm.trans hv
    | .inr (.inl ⟨_, hv⟩) => cases hvs.symm.trans hv
    | .inr (.inr (.inl ⟨os, hv, hos⟩)) => exact ⟨os, Json.arr.inj (hvs.symm.trans hv), hos⟩
    | .inr (.inr (.inr ⟨_, hv, _⟩)) => cases hvs.symm.trans hv
  | inr h =>
    match h.2 with
    | .inl ⟨_, _, hv, _⟩ => cases hvs.symm.trans hv
    | .inr ⟨_, hv⟩ => cases hvs.symm.trans hv

/-! ## What is accepted -/

/-- The configuration read from the values that the searches end at. -/
def readSought (ms : List (String × Json)) : AppConfig :=
  read fun k => (sought k (entries ms)).map Prod.snd

/-- Only the cores, the ports and the core mappings are checked. -/
theorem validateConfig_congr {c c' : AppConfig} (hcores : c.numCores = c'.numCores)
    (hports : c.ports = c'.ports) (hmappings : c.coreMappings = c'.coreMappings) :
    validateConfig c = validateConfig c' := by
  unfold validateConfig
  rw [hcores, hports, hmappings]

/-- A text of the schema is accepted when what its searches end at is. -/
theorem accepted_iff {ms : List (String × Json)} (hms : InSchemaAll ms) {jsonStr : String}
    (h : Renders (Json.obj ms).tokens jsonStr.toList) :
    Accepted jsonStr ↔ validateConfig (readSought ms) = true := by
  have hend : ∀ {k}, k ∈ topNames → ∀ m ∈ sought k (entries ms), HasEnd m.2 :=
    fun hk m hm => (hms.passes hk (mem_of_sought hm)).2.2
  have hitems : ∀ k, ∀ m ∈ sought k (entries ms), ∀ vs, m.2 = .arr vs →
      ∃ os : List (List (String × Json)), vs = os.map .obj ∧
        ∀ ns ∈ os, ∀ x ∈ ns, IsWordMember x :=
    fun k m hm vs hvs => hms.items (mem_of_sought hm) hvs
  have hparse : ∃ config, parseFromString jsonStr = some config ∧
      config.numCores = (readSought ms).numCores ∧ config.ports = (readSought ms).ports ∧
      config.coreMappings = (readSought ms).coreMappings := by
    refine ⟨_, rfl, ?_, ?_, ?_⟩
    · show (parseUint _ _ "num_cores").getD _ = _
      rw [parseUint_of_offers (hms.search (by decide) h) id (hend (by decide))]
      rfl
    · show (if extractArray jsonStr.toList "ports" = [] then getDefaultConfig.ports
        else (splitObjectsInArray (extractArray jsonStr.toList "ports")).map parsePort) = _
      rw [parseItems_of_offers (hms.search (by decide) h) (hend (by decide)) flat_of_isWordMember
        (hitems _) (fun hword hs => parsePort_of_renders hword hs)]
      rfl
    · show (if extractArray jsonStr.toList "core_mappings" = [] then getDefaultConfig.coreMappings
        else (splitObjectsInArray (extractArray jsonStr.toList "core_mappings")).map
          parseCoreMapping) = _
      rw [parseItems_of_offers (hms.search (by decide) h) (hend (by decide)) flat_of_isWordMember
        (hitems _) (fun hword hs => parseCoreMapping_of_renders hword hs)]
      rfl
  obtain ⟨config, hconfig, hcores, hports, hmappings⟩ := hparse
  rw [← validateConfig_congr hcores hports hmappings]
  constructor
  · intro ⟨config', hconfig', hvalid⟩
    cases hconfig.symm.trans hconfig'
    exact hvalid
  · intro hvalid
    exact ⟨config, hconfig, hvalid⟩

/-! ## Leaving out members -/

/-- A port with members left out, other than the one that says which port it is. -/
structure Trims (ns ns' : List (String × Json)) : Prop where
  sublist : ns'.Sublist ns
  portId : ∀ m ∈ ns, m.1 = "port_id" → m ∈ ns'

/-- A member as it was, or the ports with members left out of their entries. -/
def Omitted (m m' : String × Json) : Prop :=
  m' = m ∨ ∃ os os' : List (List (String × Json)), m = ("ports", .arr (os.map .obj)) ∧
    m' = ("ports", .arr (os'.map .obj)) ∧ List.Forall₂ Trims os os'

/-- A text's members, with members left out of the entries of its ports. -/
def Omits (ms ms' : List (String × Json)) : Prop := List.Forall₂ Omitted ms ms'

theorem IsPort.trims {ns ns' : List (String × Json)} (h : IsPort ns) (htrims : Trims ns ns') :
    IsPort ns' :=
  ⟨h.nodup.sublist (htrims.sublist.map Prod.fst), fun m hm => h.member m (htrims.sublist.subset hm)⟩

theorem isPort_of_inSchema {os : List (List (String × Json))}
    (h : InSchema ("ports", .arr (os.map .obj))) : ∀ ns ∈ os, IsPort ns := by
  generalize hm : (("ports", .arr (os.map .obj)) : String × Json) = m at h
  cases h with
  | @ports os' hos =>
    have hmap : os.map Json.obj = os'.map .obj := by simpa using hm
    have hinj : Function.Injective Json.obj := fun _ _ => Json.obj.inj
    exact List.map_injective_iff.mpr hinj hmap ▸ hos
  | number _ => cases hm
  | _ => simp at hm

theorem Omitted.name {m m' : String × Json} (h : Omitted m m') : m'.1 = m.1 := by
  cases h with
  | inl heq => rw [heq]
  | inr h =>
    obtain ⟨os, os', rfl, rfl, -⟩ := h
    rfl

theorem Omitted.inSchema {m m' : String × Json} (h : Omitted m m') (hm : InSchema m) :
    InSchema m' := by
  cases h with
  | inl heq => exact heq ▸ hm
  | inr h =>
    obtain ⟨os, os', rfl, rfl, htrims⟩ := h
    have hos := isPort_of_inSchema hm
    apply InSchema.ports
    clear hm
    induction htrims with
    | nil => exact List.forall_mem_nil _
    | cons htrim _ ih =>
      rw [List.forall_mem_cons] at hos ⊢
      exact ⟨hos.1.trims htrim, ih hos.2⟩

variable {ms ms' : List (String × Json)}

/-- A text stays one of the schema. -/
theorem Omits.inSchemaAll (h : Omits ms ms') (hms : InSchemaAll ms) : InSchemaAll ms' := by
  have hnames : ms'.map Prod.fst = ms.map Prod.fst := by
    clear hms
    induction h with
    | nil => rfl
    | cons hm _ ih => rw [List.map_cons, List.map_cons, hm.name, ih]
  refine ⟨hnames ▸ hms.nodup, ?_⟩
  have hmember := hms.member
  clear hms hnames
  induction h with
  | nil => exact List.forall_mem_nil _
  | cons hm _ ih =>
    rw [List.forall_mem_cons] at hmember ⊢
    exact ⟨hm.inSchema hmember.1, ih hmember.2⟩

/-- What a search meets is as it was, but for the ports. -/
theorem Omits.entries (h : Omits ms ms') :
    List.Forall₂ Omitted (ConfigParser.entries ms) (ConfigParser.entries ms') := by
  induction h with
  | nil => exact .nil
  | @cons m m' ms ms' hm _ ih =>
    have hinner : List.Forall₂ Omitted (membersOf m.2) (membersOf m'.2) := by
      cases hm with
      | inl heq => exact heq ▸ List.forall₂_same.mpr fun _ _ => .inl rfl
      | inr h =>
        obtain ⟨os, os', rfl, rfl, -⟩ := h
        exact .nil
    exact List.rel_append (.cons hm hinner) ih

/-- A search ends at the same member. -/
theorem sought_omitted (k : String) {es es' : List (String × Json)}
    (h : List.Forall₂ Omitted es es') : Option.Rel Omitted (sought k es) (sought k es') := by
  induction h with
  | nil => exact .none
  | @cons m m' es es' hm hes ih =>
    have hstops : stops k m'.2 = stops k m.2 := by
      cases hm with
      | inl heq => rw [heq]
      | inr h =>
        obtain ⟨os, os', rfl, rfl, -⟩ := h
        rfl
    rw [sought, sought, hm.name, hstops]
    split
    · exact .some hm
    · split
      · cases hes with
        | nil => exact .none
        | cons hm _ => exact .some hm
      · exact ih

/-! ## What is checked of a port -/

/-- A number that a field of 16 bits does not hold as zero. -/
def Counts (x : Nat) : Prop := x < UInt64.size → x % UInt16.size ≠ 0

/-- The members of a port that give it descriptors and queues. -/
def KeepsChecked (ns : List (String × Json)) : Prop :=
  (∃ x, ("nb_rx_desc", Json.nat x) ∈ ns) ∧ (∃ x, ("nb_tx_desc", Json.nat x) ∈ ns) ∧
    ∃ k ∈ ["nb_rx_queues", "nb_tx_queues"], ∃ x, (k, Json.nat x) ∈ ns ∧ Counts x

/-- What `validate_config` checks of a port. -/
def PortOk (port : PortConfig) : Prop :=
  ¬ (port.nbRxQueues = 0 ∧ port.nbTxQueues = 0) ∧ port.nbRxDesc ≠ 0 ∧ port.nbTxDesc ≠ 0

theorem validateConfig_iff (config : AppConfig) : validateConfig config = true ↔
    config.numCores ≠ 0 ∧ config.ports ≠ [] ∧ config.coreMappings ≠ [] ∧
      (∀ port ∈ config.ports, PortOk port) ∧
      ∀ m ∈ config.coreMappings, ∃ port ∈ config.ports, port.portId = m.portId := by
  -- the two `any` and the `all` as statements
  have hport : ∀ port : PortConfig, ((port.nbRxQueues = 0 && port.nbTxQueues = 0) ||
      (port.nbRxDesc = 0 || port.nbTxDesc = 0)) = true ↔ ¬ PortOk port := by
    intro port
    simp only [PortOk, Bool.or_eq_true, Bool.and_eq_true, decide_eq_true_eq]
    tauto
  have hports : (config.ports.any fun port => (port.nbRxQueues = 0 && port.nbTxQueues = 0) ||
      (port.nbRxDesc = 0 || port.nbTxDesc = 0)) = true ↔
        ¬ ∀ port ∈ config.ports, PortOk port := by
    simp only [List.any_eq_true, hport, not_forall, exists_prop]
  have hmappings : (config.coreMappings.all fun mapping =>
      config.ports.any fun port => port.portId = mapping.portId) = true ↔
        ∀ m ∈ config.coreMappings, ∃ port ∈ config.ports, port.portId = m.portId := by
    simp
  unfold validateConfig
  by_cases hcores : config.numCores = 0
  · simp [hcores]
  · by_cases hempty : config.ports = []
    · simp [hempty]
    · by_cases hnone : config.coreMappings = []
      · simp [hnone]
      · rw [if_neg hcores, if_neg (by simpa using hempty), if_neg (by simpa using hnone)]
        by_cases hok : ∀ port ∈ config.ports, PortOk port
        · rw [if_neg (fun h => hports.mp h hok), hmappings]
          exact ⟨fun h => ⟨hcores, hempty, hnone, hok, h⟩, fun h => h.2.2.2.2⟩
        · rw [if_pos (hports.mpr hok)]
          exact ⟨fun h => absurd h (by decide), fun h => absurd h.2.2.2.1 hok⟩

/-- The field of 16 bits that a member is read into. -/
def portField (k : String) (ns : List (String × Json)) : UInt16 :=
  (((ns.lookup k).bind readNat).map UInt64.toUInt16).getD 0

theorem readNat_nat (x : Nat) : readNat (.nat x) =
    some (if UInt64.size ≤ x then UInt64.ofNat (UInt64.size - 1) else UInt64.ofNat x) :=
  strtoull_repr_eq x

theorem counts_iff (x : Nat) :
    ((readNat (.nat x)).map UInt64.toUInt16).getD 0 ≠ 0 ↔ Counts x := by
  rw [readNat_nat, Option.map_some, Option.getD_some]
  unfold Counts
  split
  · next hx =>
    exact ⟨fun _ h => absurd h (Nat.not_lt.mpr hx), fun _ => by decide⟩
  · next hx =>
    have hsmall : x < UInt64.size := Nat.not_le.mp hx
    have hcut : (UInt64.ofNat x).toUInt16.toNat = x % UInt16.size := by
      rw [UInt64.toNat_toUInt16]
      exact congrArg (· % UInt16.size) (UInt64.toNat_ofNat_of_lt hsmall)
    rw [ne_eq, ← UInt16.toNat_inj, hcut]
    exact ⟨fun h _ => h, fun h => h hsmall⟩

/-- A field of a port is zero unless a number is given for it that it does not hold as zero. -/
theorem portField_ne_zero_iff {ns : List (String × Json)} (hns : IsPort ns) {k : String} :
    portField k ns ≠ 0 ↔ ∃ x, (k, Json.nat x) ∈ ns ∧ Counts x := by
  unfold portField
  constructor
  · intro h
    cases hlookup : ns.lookup k with
    | none =>
      rw [hlookup] at h
      exact absurd rfl h
    | some v =>
      have hmem := mem_of_lookup hlookup
      obtain ⟨-, x, hx⟩ := hns.member _ hmem
      cases hx
      rw [hlookup] at h
      exact ⟨x, hmem, (counts_iff x).mp h⟩
  · intro ⟨x, hmem, hx⟩
    rw [lookup_of_mem hns.nodup hmem]
    exact (counts_iff x).mpr hx

theorem portOk_iff {ns : List (String × Json)} (hns : IsPort ns) : PortOk (readPort ns) ↔
    (∃ x, ("nb_rx_desc", Json.nat x) ∈ ns ∧ Counts x) ∧
      (∃ x, ("nb_tx_desc", Json.nat x) ∈ ns ∧ Counts x) ∧
      ∃ k ∈ ["nb_rx_queues", "nb_tx_queues"], ∃ x, (k, Json.nat x) ∈ ns ∧ Counts x := by
  have hqueues : ¬ ((readPort ns).nbRxQueues = 0 ∧ (readPort ns).nbTxQueues = 0) ↔
      portField "nb_rx_queues" ns ≠ 0 ∨ portField "nb_tx_queues" ns ≠ 0 := not_and_or
  unfold PortOk
  rw [hqueues]
  show (_ ∨ _) ∧ portField "nb_rx_desc" ns ≠ 0 ∧ portField "nb_tx_desc" ns ≠ 0 ↔ _
  simp only [portField_ne_zero_iff hns, List.mem_cons, List.not_mem_nil, or_false,
    exists_eq_or_imp, exists_eq_left]
  constructor
  · intro ⟨hqueue, hrx, htx⟩
    exact ⟨hrx, htx, hqueue⟩
  · intro ⟨hrx, htx, hqueue⟩
    exact ⟨hqueue, hrx, htx⟩

section

variable {ns ns' : List (String × Json)}

theorem value_unique (hns : (ns.map Prod.fst).Nodup) {k : String} {v v' : Json} (h : (k, v) ∈ ns)
    (h' : (k, v') ∈ ns) : v = v' :=
  Option.some.inj ((lookup_of_mem hns h).symm.trans (lookup_of_mem hns h'))

/-- What stays of a port is still what it was, so only what is missing is refused. -/
theorem portOk_iff_of_trims (hns : IsPort ns) (h : Trims ns ns') (hok : PortOk (readPort ns)) :
    PortOk (readPort ns') ↔ KeepsChecked ns' := by
  -- a member that stays has the value it had
  have hstays : ∀ {k}, (∃ x, (k, Json.nat x) ∈ ns ∧ Counts x) →
      (∃ x, (k, Json.nat x) ∈ ns') → ∃ x, (k, Json.nat x) ∈ ns' ∧ Counts x := by
    intro k ⟨x, hx, hcounts⟩ ⟨y, hy⟩
    have hxy := value_unique hns.nodup hx (h.sublist.subset hy)
    exact ⟨x, hxy ▸ hy, hcounts⟩
  obtain ⟨hrx, htx, -⟩ := (portOk_iff hns).mp hok
  rw [portOk_iff (hns.trims h)]
  constructor
  · intro ⟨⟨x, hx, _⟩, ⟨y, hy, _⟩, hqueues⟩
    exact ⟨⟨x, hx⟩, ⟨y, hy⟩, hqueues⟩
  · intro ⟨hrx', htx', hqueues⟩
    exact ⟨hstays hrx hrx', hstays htx htx', hqueues⟩

/-- The port keeps its number. -/
theorem lookup_portId (hns : IsPort ns) (h : Trims ns ns') :
    ns'.lookup "port_id" = ns.lookup "port_id" := by
  cases hlookup : ns.lookup "port_id" with
  | none =>
    apply lookup_eq_none
    intro hmem
    obtain ⟨m, hm, hname⟩ := List.mem_map.mp hmem
    have hsome := lookup_of_mem hns.nodup (h.sublist.subset hm : (m.1, m.2) ∈ ns)
    rw [hname, hlookup] at hsome
    cases hsome
  | some v =>
    exact lookup_of_mem (hns.trims h).nodup (h.portId _ (mem_of_lookup hlookup) rfl)

theorem portId_readPort (hns : IsPort ns) (h : Trims ns ns') :
    (readPort ns').portId = (readPort ns).portId := by
  unfold readPort
  rw [lookup_portId hns h]

/-- Read as a core mapping, a port has nothing but its number. -/
theorem readCoreMapping_of_isPort (hns : IsPort ns) : readCoreMapping ns =
    { coreId := 0
      portId := (((ns.lookup "port_id").bind readNat).map UInt64.toUInt16).getD 0
      queueId := 0
      enableRx := false } := by
  have hnone : ∀ k ∉ portNames, ns.lookup k = none := by
    intro k hk
    apply lookup_eq_none
    intro hmem
    obtain ⟨m, hm, rfl⟩ := List.mem_map.mp hmem
    exact hk (hns.member m hm).1
  unfold readCoreMapping
  rw [hnone "core_id" (by decide), hnone "queue_id" (by decide), hnone "enable_rx" (by decide)]
  rfl

theorem readCoreMapping_trims (hns : IsPort ns) (h : Trims ns ns') :
    readCoreMapping ns' = readCoreMapping ns := by
  rw [readCoreMapping_of_isPort hns, readCoreMapping_of_isPort (hns.trims h), lookup_portId hns h]

end

/-- What a reading of ports that leaving out members does not change makes of an array of them. -/
theorem map_trims {α : Type} {f : List (String × Json) → α}
    (hf : ∀ {ns ns'}, IsPort ns → Trims ns ns' → f ns' = f ns)
    {os os' : List (List (String × Json))} (hos : ∀ ns ∈ os, IsPort ns)
    (h : List.Forall₂ Trims os os') : os'.map f = os.map f := by
  induction h with
  | nil => rfl
  | cons htrim _ ih =>
    rw [List.forall_mem_cons] at hos
    rw [List.map_cons, List.map_cons, hf hos.1 htrim, ih hos.2]

theorem forall_portOk_iff {os os' : List (List (String × Json))} (hos : ∀ ns ∈ os, IsPort ns)
    (h : List.Forall₂ Trims os os') (hok : ∀ ns ∈ os, PortOk (readPort ns)) :
    (∀ ns ∈ os', PortOk (readPort ns)) ↔ ∀ ns ∈ os', KeepsChecked ns := by
  induction h with
  | nil => exact ⟨fun _ => List.forall_mem_nil _, fun _ => List.forall_mem_nil _⟩
  | cons htrim _ ih =>
    rw [List.forall_mem_cons] at hos hok
    rw [List.forall_mem_cons, List.forall_mem_cons, ih hos.2 hok.2,
      portOk_iff_of_trims hos.1 htrim hok.1]

/-! ## What an accepted text must keep -/

/-- The search for the ports ends at them, and not at what stands behind a string that is their
    name. -/
def PortsRead (ms : List (String × Json)) : Prop :=
  (sought "ports" (entries ms)).map Prod.fst = some "ports"

/-- Where the ports are met, they are an array of ports with members left out. -/
theorem Omitted.ports {m m' : String × Json} (h : Omitted m m') (hm : InSchema m)
    (hname : m.1 = "ports") : ∃ os os' : List (List (String × Json)),
      m = ("ports", .arr (os.map .obj)) ∧ m' = ("ports", .arr (os'.map .obj)) ∧
        List.Forall₂ Trims os os' ∧ ∀ ns ∈ os, IsPort ns := by
  cases h with
  | inl heq =>
    subst heq
    have hports := hm
    cases hm with
    | ports hos =>
      exact ⟨_, _, rfl, rfl, List.forall₂_same.mpr fun ns _ => ⟨.refl ns, fun _ hm _ => hm⟩, hos⟩
    | @number n _ hn =>
      obtain rfl : n = "ports" := hname
      exact absurd hn (by decide)
    | _ => simp at hname
  | inr h =>
    obtain ⟨os, os', rfl, rfl, htrims⟩ := h
    exact ⟨os, os', rfl, rfl, htrims, isPort_of_inSchema hm⟩

/-- A value other than that of the ports is as it was. -/
theorem Omitted.eq_of_name {m m' : String × Json} (h : Omitted m m') (hname : m.1 ≠ "ports") :
    m' = m := by
  cases h with
  | inl heq => exact heq
  | inr h =>
    obtain ⟨os, os', rfl, rfl, -⟩ := h
    exact absurd rfl hname

theorem InSchemaAll.mem_of_ports (hms : InSchemaAll ms) {m : String × Json}
    (hm : m ∈ entries ms) (hname : m.1 = "ports") : m ∈ ms := by
  cases hms.mem_entries hm with
  | inl h => exact h
  | inr h => exact absurd (hname ▸ h.1) (by decide)

/-- A reading of one value that does not depend on the members left out. -/
theorem bind_omitted {α : Type} (hms : InSchemaAll ms) (homits : Omits ms ms') (k : String)
    {f : Json → Option α}
    (hf : ∀ {os os' : List (List (String × Json))}, (∀ ns ∈ os, IsPort ns) →
      List.Forall₂ Trims os os' → f (.arr (os'.map .obj)) = f (.arr (os.map .obj))) :
    ((sought k (entries ms')).map Prod.snd).bind f =
      ((sought k (entries ms)).map Prod.snd).bind f := by
  have hmem : ∀ m, sought k (entries ms) = some m → m ∈ entries ms := fun m => mem_of_sought
  have hrel := sought_omitted k homits.entries
  generalize sought k (entries ms) = t at hrel hmem
  generalize sought k (entries ms') = t' at hrel
  cases hrel with
  | none => rfl
  | @some m m' h =>
    by_cases hname : m.1 = "ports"
    · have hschema := hms.member m (hms.mem_of_ports (hmem m rfl) hname)
      obtain ⟨os, os', rfl, rfl, htrims, hos⟩ := h.ports hschema hname
      exact hf hos htrims
    · rw [h.eq_of_name hname]

theorem numCores_omits (hms : InSchemaAll ms) (homits : Omits ms ms') :
    (readSought ms').numCores = (readSought ms).numCores := by
  have hvalue := bind_omitted hms homits "num_cores" (f := readNat) fun _ _ => rfl
  show ((Option.map _ (Option.bind _ readNat)).getD _) = _
  rw [hvalue]
  rfl

/-- The core mappings stay, even where the ports are read for them. -/
theorem coreMappings_omits (hms : InSchemaAll ms) (homits : Omits ms ms') :
    (readSought ms').coreMappings = (readSought ms).coreMappings := by
  have hvalue := bind_omitted hms homits "core_mappings"
    (f := fun v => (readItems v).map (·.map readCoreMapping)) (by
      intro os os' hos htrims
      rw [readItems_arr, readItems_arr, Option.map_some, Option.map_some,
        map_trims readCoreMapping_trims hos htrims])
  have hread : ∀ ms, (readSought ms).coreMappings =
      (((sought "core_mappings" (entries ms)).map Prod.snd).bind fun v =>
        (readItems v).map (·.map readCoreMapping)).getD getDefaultConfig.coreMappings := by
    intro ms
    show (((sought "core_mappings" (entries ms)).map Prod.snd).bind readItems).elim _ _ = _
    cases (sought "core_mappings" (entries ms)).map Prod.snd with
    | none => rfl
    | some v =>
      rw [Option.bind_some, Option.bind_some]
      cases readItems v with
      | none => rfl
      | some os => rfl
  rw [hread, hread, hvalue]

theorem ports_readSought (ms : List (String × Json)) : (readSought ms).ports =
    (((sought "ports" (entries ms)).map Prod.snd).bind readItems).elim getDefaultConfig.ports
      (·.map readPort) := rfl

/-- Where the ports are read, they are read with the members left out. -/
theorem ports_of_portsRead (hms : InSchemaAll ms) (homits : Omits ms ms') (hread : PortsRead ms) :
    ∃ os os' : List (List (String × Json)), ("ports", Json.arr (os'.map .obj)) ∈ ms' ∧
      List.Forall₂ Trims os os' ∧ (∀ ns ∈ os, IsPort ns) ∧
      (readSought ms).ports = os.map readPort ∧ (readSought ms').ports = os'.map readPort := by
  have hrel := sought_omitted "ports" homits.entries
  unfold PortsRead at hread
  rw [ports_readSought, ports_readSought]
  cases hm : sought "ports" (entries ms) with
  | none => simp [hm] at hread
  | some m =>
    have hname : m.1 = "ports" := by simpa [hm] using hread
    cases hm' : sought "ports" (entries ms') with
    | none =>
      rw [hm, hm'] at hrel
      cases hrel
    | some m' =>
      rw [hm, hm'] at hrel
      cases hrel with
      | some homitted =>
        have hschema := hms.member m (hms.mem_of_ports (mem_of_sought hm) hname)
        have hmem := (homits.inSchemaAll hms).mem_of_ports (mem_of_sought hm')
          (homitted.name.trans hname)
        obtain ⟨os, os', rfl, rfl, htrims, hos⟩ := homitted.ports hschema hname
        refine ⟨os, os', hmem, htrims, hos, ?_, ?_⟩
        all_goals rw [Option.map_some, Option.bind_some, readItems_arr]; rfl

/-- Where they are not, nothing is read otherwise. -/
theorem ports_of_not_portsRead (homits : Omits ms ms') (hread : ¬ PortsRead ms) :
    (readSought ms').ports = (readSought ms).ports := by
  have hrel := sought_omitted "ports" homits.entries
  unfold PortsRead at hread
  rw [ports_readSought, ports_readSought]
  cases hm : sought "ports" (entries ms) with
  | none =>
    rw [hm] at hrel
    cases hm' : sought "ports" (entries ms') with
    | none => rfl
    | some m' =>
      rw [hm'] at hrel
      cases hrel
  | some m =>
    have hname : m.1 ≠ "ports" := by simpa [hm] using hread
    rw [hm] at hrel
    cases hm' : sought "ports" (entries ms') with
    | none =>
      rw [hm'] at hrel
      cases hrel
    | some m' =>
      rw [hm'] at hrel
      cases hrel with
      | some homitted => rw [homitted.eq_of_name hname]

/-- Of an accepted text of the schema, with members left out of the entries of its ports, each
    entry must keep its descriptors and a number of queues, where the ports are read. -/
theorem accepted_iff_of_omits (hms : InSchemaAll ms) (homits : Omits ms ms')
    {jsonStr jsonStr' : String} (h : Renders (Json.obj ms).tokens jsonStr.toList)
    (h' : Renders (Json.obj ms').tokens jsonStr'.toList) (haccepted : Accepted jsonStr) :
    Accepted jsonStr' ↔ (PortsRead ms → ∀ os : List (List (String × Json)),
      ("ports", Json.arr (os.map .obj)) ∈ ms' → ∀ ns ∈ os, KeepsChecked ns) := by
  have hms' := homits.inSchemaAll hms
  rw [accepted_iff hms h, validateConfig_iff] at haccepted
  rw [accepted_iff hms' h', validateConfig_iff, numCores_omits hms homits,
    coreMappings_omits hms homits]
  obtain ⟨hcores, hports, hmappings, hok, hnamed⟩ := haccepted
  by_cases hread : PortsRead ms
  · obtain ⟨os, os', hmem, htrims, hos, hportsEq, hportsEq'⟩ := ports_of_portsRead hms homits hread
    rw [hportsEq] at hports hok hnamed
    -- the ports keep their numbers, so every mapping still has one
    have hids := map_trims (f := fun ns => (readPort ns).portId) portId_readPort hos htrims
    have hchecked := forall_portOk_iff hos htrims (by simpa using hok)
    have hne : os'.map readPort ≠ [] := by
      intro hnil
      have hlength := congrArg List.length hids
      simp_all
    have hnamed' : ∀ m ∈ (readSought ms).coreMappings, ∃ port ∈ os'.map readPort,
        port.portId = m.portId := by
      intro m hm
      obtain ⟨port, hport, hid⟩ := hnamed m hm
      obtain ⟨ns, hns, rfl⟩ := List.mem_map.mp hport
      have hidMem : m.portId ∈ os'.map fun ns => (readPort ns).portId :=
        hids ▸ hid ▸ List.mem_map_of_mem hns
      obtain ⟨ns', hns', hid'⟩ := List.mem_map.mp hidMem
      exact ⟨readPort ns', List.mem_map_of_mem hns', hid'⟩
    rw [hportsEq', List.forall_mem_map, hchecked]
    constructor
    · -- no other array is written as the ports
      intro ⟨_, _, _, hkeeps, _⟩ _ os'' hmem''
      have hvalue := value_unique hms'.nodup hmem'' hmem
      have hinj : Function.Injective Json.obj := fun _ _ => Json.obj.inj
      rw [List.map_injective_iff.mpr hinj (Json.arr.inj hvalue)]
      exact hkeeps
    · intro hkeeps
      exact ⟨hcores, hne, hmappings, hkeeps hread os' hmem, hnamed'⟩
  · rw [ports_of_not_portsRead homits hread]
    exact ⟨fun _ hread' => absurd hread' hread, fun _ => ⟨hcores, hports, hmappings, hok, hnamed⟩⟩

/-! ### One port -/

/-- A document with nothing but one port. -/
def onePort (ns : List (String × Json)) : List (String × Json) :=
  [("ports", .arr ([ns].map .obj))]

/-- The text of an object without white space. -/
def textOf (ms : List (String × Json)) : String :=
  String.ofList ((Json.obj ms).tokens.flatMap Token.chars)

theorem renders_textOf (ms : List (String × Json)) :
    Renders (Json.obj ms).tokens (textOf ms).toList := by
  rw [textOf, String.toList_ofList]
  exact Renders.flatMap_chars _

theorem inSchemaAll_onePort {ns : List (String × Json)} (hns : IsPort ns) :
    InSchemaAll (onePort ns) where
  nodup := List.nodup_singleton _
  member := List.forall_mem_singleton.mpr (.ports (List.forall_mem_singleton.mpr hns))

theorem omits_onePort {ns ns' : List (String × Json)} (h : Trims ns ns') :
    Omits (onePort ns) (onePort ns') :=
  .cons (.inr ⟨[ns], [ns'], rfl, rfl, .cons h .nil⟩) .nil

/-- The port of the defaults. -/
def defaultPort : List (String × Json) :=
  [("port_id", .nat 0), ("nb_rx_queues", .nat 1), ("nb_tx_queues", .nat 1),
    ("nb_rx_desc", .nat 1024), ("nb_tx_desc", .nat 1024)]

theorem isPort_defaultPort : IsPort defaultPort where
  nodup := by decide
  member := by
    simp only [defaultPort, List.forall_mem_cons, List.not_mem_nil, false_imp_iff, implies_true,
      and_true]
    refine ⟨?_, ?_, ?_, ?_, ?_⟩
    all_goals exact ⟨by decide, _, rfl⟩

theorem accepted_defaultPort : Accepted (textOf (onePort defaultPort)) := by
  rw [accepted_iff (inSchemaAll_onePort isPort_defaultPort) (renders_textOf _)]
  decide

/-- Any one member but the first can be left out. -/
theorem trims_defaultPort (i : Nat) : Trims defaultPort (defaultPort.eraseIdx (i + 1)) where
  sublist := List.eraseIdx_sublist _ _
  portId := by
    intro m hm hname
    simp only [defaultPort, List.eraseIdx_cons_succ] at hm ⊢
    cases List.mem_cons.mp hm with
    | inl heq => exact heq ▸ List.mem_cons_self
    | inr htail =>
      have hother : ∀ m ∈ defaultPort.tail, m.1 ≠ "port_id" := by
        simp [defaultPort]
      exact absurd hname (hother m htail)

/-- Without the queues it receives on, a port still has those it sends on. -/
theorem accepted_withoutRxQueues : Accepted (textOf (onePort (defaultPort.eraseIdx 1))) := by
  apply (accepted_iff_of_omits (inSchemaAll_onePort isPort_defaultPort)
    (omits_onePort (trims_defaultPort 0)) (renders_textOf _) (renders_textOf _)
    accepted_defaultPort).mpr
  intro _ os hmem ns hns
  have hmap : os.map Json.obj = [defaultPort.eraseIdx 1].map .obj := by
    simpa [onePort] using hmem
  have hinj : Function.Injective Json.obj := fun _ _ => Json.obj.inj
  rw [List.map_injective_iff.mpr hinj hmap, List.mem_singleton] at hns
  rw [hns]
  refine ⟨⟨1024, ?_⟩, ⟨1024, ?_⟩, "nb_tx_queues", by decide, 1, ?_, fun _ => by decide⟩
  all_goals simp [defaultPort]

/-- Without its receive descriptors, the port of the defaults is refused. -/
theorem not_accepted_withoutRxDesc :
    ¬ ∀ (ms ms' : List (String × Json)) (jsonStr jsonStr' : String), InSchemaAll ms →
      Omits ms ms' → Renders (Json.obj ms).tokens jsonStr.toList →
      Renders (Json.obj ms').tokens jsonStr'.toList → Accepted jsonStr → Accepted jsonStr' := by
  intro hall
  have hport := isPort_defaultPort.trims (trims_defaultPort 2)
  have haccepted := hall _ _ _ _ (inSchemaAll_onePort isPort_defaultPort)
    (omits_onePort (trims_defaultPort 2)) (renders_textOf _) (renders_textOf _)
    accepted_defaultPort
  rw [accepted_iff (inSchemaAll_onePort hport) (renders_textOf _)] at haccepted
  exact absurd haccepted (by decide)

end TrafficGen.AppConfig
