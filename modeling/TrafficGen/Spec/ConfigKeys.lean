import TrafficGen.Spec.ConfigRoundTrip

/-!
# Names that are mistaken for another

A search for a name may end at a member of another name: the one written behind a string that is
the name. The field is then given what that member's value makes of it, and is right only when
this happens to be the value it should have. Which values those are is said here by the numbers
and strings of the configuration.

## Key results

- `Found`: each search ends at the member of its name, at none, or by chance at the right value
- `read_target_iff`: what is read where the searches end is the configuration exactly then
-/

namespace TrafficGen.AppConfig

open ConfigParser

/-- The number that the member of a name is written as, if it is one. -/
def numberOf (c : AppConfig) : String → Option Nat
  | "num_cores" => some c.numCores.toNat
  | "mbufs_per_socket" => some c.mbufsPerSocket.toNat
  | "mbuf_cache_size" => some c.mbufCacheSize.toNat
  | "tx_burst_size" => some c.txBurstSize.toNat
  | "rx_burst_size" => some c.rxBurstSize.toNat
  | "port" => some c.grpcConfig.port.toNat
  | _ => none

/-- What the fields become when the member `name` is taken for theirs: a number is cut to the
    field, the two arrays have only the port ids in common, and anything else leaves the default. -/
def mistaken (c : AppConfig) (name : String) : AppConfig :=
  let d := getDefaultConfig
  { hugepagePath :=
      if name = "listen_address" then c.grpcConfig.listenAddress else d.hugepagePath
    numCores := ((c.numberOf name).map UInt32.ofNat).getD d.numCores
    mbufsPerSocket := ((c.numberOf name).map UInt32.ofNat).getD d.mbufsPerSocket
    mbufCacheSize := ((c.numberOf name).map UInt32.ofNat).getD d.mbufCacheSize
    txBurstSize := ((c.numberOf name).map UInt16.ofNat).getD d.txBurstSize
    rxBurstSize := ((c.numberOf name).map UInt16.ofNat).getD d.rxBurstSize
    ports :=
      if name = "core_mappings" then c.coreMappings.map fun m => ⟨m.portId, 0, 0, 0, 0⟩
      else d.ports
    coreMappings :=
      if name = "ports" then c.ports.map fun p => ⟨0, p.portId, 0, false⟩ else d.coreMappings
    grpcConfig := d.grpcConfig }

/-- The search for `k` ends at the member of that name, or at no member, or the member it is
    mistaken for leaves the field as it should be. -/
def Finds {α : Type} (c : AppConfig) (ms : List (String × Json)) (k : String)
    (field : AppConfig → α) : Prop :=
  ∀ m ∈ target k (entries ms), m.1 = k ∨
    field (c.mistaken m.1) = field (c.withDefaults (ms.map Prod.fst))

instance {α : Type} [DecidableEq α] (c : AppConfig) (ms : List (String × Json)) (k : String)
    (field : AppConfig → α) : Decidable (Finds c ms k field) :=
  inferInstanceAs (Decidable (∀ m ∈ target k (entries ms), _))

/-- Every search does. -/
structure Found (c : AppConfig) (ms : List (String × Json)) : Prop where
  hugepagePath : c.Finds ms "hugepage_path" AppConfig.hugepagePath
  numCores : c.Finds ms "num_cores" AppConfig.numCores
  mbufsPerSocket : c.Finds ms "mbufs_per_socket" AppConfig.mbufsPerSocket
  mbufCacheSize : c.Finds ms "mbuf_cache_size" AppConfig.mbufCacheSize
  txBurstSize : c.Finds ms "tx_burst_size" AppConfig.txBurstSize
  rxBurstSize : c.Finds ms "rx_burst_size" AppConfig.rxBurstSize
  ports : c.Finds ms "ports" AppConfig.ports
  coreMappings : c.Finds ms "core_mappings" AppConfig.coreMappings
  grpcConfig : c.Finds ms "grpc_config" AppConfig.grpcConfig

section

variable {c : AppConfig} {ms : List (String × Json)} {k : String}

/-! ## Where a search ends -/

/-- An entry of a document is a member of it or of the control plane's object. -/
theorem Document.entry (hdoc : c.Document ms) {m : String × Json} (hm : m ∈ entries ms) :
    m ∈ ms ∧ c.Describes m ∨ m ∈ c.grpcConfig.members := by
  unfold entries at hm
  obtain ⟨x, hx, hm⟩ := List.mem_flatMap.mp hm
  have hdesc := hdoc.describes x hx
  cases List.mem_cons.mp hm with
  | inl heq => exact .inl (heq ▸ ⟨hx, hdesc⟩)
  | inr hinner =>
    obtain ⟨n, v⟩ := x
    cases v with
    | obj ns => exact .inr (hdesc.name_of_obj.2.mem_iff.mp hinner)
    | _ => exact absurd hinner List.not_mem_nil

/-- An entry with the name of a member of the document is that member. -/
theorem lookup_of_entry (hdoc : c.Document ms) (hk : k ∈ topNames) {v : Json}
    (hm : (k, v) ∈ entries ms) : ms.lookup k = some v := by
  cases hdoc.entry hm with
  | inl hmem => exact lookup_of_mem hdoc.nodup hmem.1
  | inr hgrpc =>
    -- the control plane's members have other names
    have hnames : ∀ x ∈ c.grpcConfig.members, x.1 ∉ topNames := by
      simp [GRPCConfig.members, topNames]
    exact absurd hk (hnames _ hgrpc)

/-- A name of a list is found in it, or another name is. -/
theorem target_ne_none {es : List (String × Json)} (h : k ∈ es.map Prod.fst) :
    target k es ≠ none := by
  induction es with
  | nil => exact absurd h List.not_mem_nil
  | cons m es ih =>
    rw [target]
    split
    · exact Option.some_ne_none m
    · next hne =>
      have hrest : k ∈ es.map Prod.fst := (List.mem_cons.mp h).resolve_left (Ne.symm hne)
      split
      · -- the value is the name, and the name itself is still ahead
        cases es with
        | nil => exact absurd hrest List.not_mem_nil
        | cons m' es => exact Option.some_ne_none m'
      · exact ih hrest

/-- A search that ends at no member is for a name that the document does not have. -/
theorem lookup_of_target_none (h : target k (entries ms) = none) : ms.lookup k = none := by
  apply lookup_eq_none
  intro hmem
  obtain ⟨m, hm, rfl⟩ := List.mem_map.mp hmem
  apply target_ne_none _ h
  exact List.mem_map_of_mem (List.mem_flatMap.mpr ⟨m, hm, List.mem_cons_self⟩)

/-- What a field is given where the search for its name ends is right exactly when the search ends
    at its member, or by chance. -/
theorem read_target_eq_iff (hdoc : c.Document ms) (hk : k ∈ topNames) {α : Type}
    (read : Option Json → α) (field : AppConfig → α)
    (hlookup : read (ms.lookup k) = field (c.withDefaults (ms.map Prod.fst)))
    (hmistaken : ∀ m ∈ entries ms, m.1 ≠ k → read (some m.2) = field (c.mistaken m.1)) :
    read ((target k (entries ms)).map Prod.snd) = read (ms.lookup k) ↔ c.Finds ms k field := by
  unfold Finds
  cases htarget : target k (entries ms) with
  | none =>
    rw [Option.map_none, lookup_of_target_none htarget]
    exact iff_of_true rfl fun m hm => nomatch hm
  | some m =>
    have hm := mem_of_target htarget
    simp only [Option.map_some, Option.mem_some_iff, forall_eq']
    -- an entry of this name is the member the reader means
    by_cases hname : m.1 = k
    · subst hname
      rw [lookup_of_entry hdoc hk hm]
      exact iff_of_true rfl (.inl rfl)
    · rw [hmistaken m hm hname, hlookup]
      exact ⟨.inr, fun h => h.resolve_left hname⟩

/-! ## What a member of another name is taken for -/

/-- A number is read from the members that are written as one. -/
theorem readNat_of_entry (hdoc : c.Document ms) {m : String × Json} (hm : m ∈ entries ms) :
    readNat m.2 = (c.numberOf m.1).map UInt64.ofNat := by
  -- the numbers of a configuration are small enough for `strtoull`
  have h32 : ∀ n : UInt32, readNat (.nat n.toNat) = some (UInt64.ofNat n.toNat) := fun n =>
    strtoull_repr (Nat.lt_trans n.toNat_lt (by decide))
  have h16 : ∀ n : UInt16, readNat (.nat n.toNat) = some (UInt64.ofNat n.toNat) := fun n =>
    strtoull_repr (Nat.lt_trans n.toNat_lt (by decide))
  cases hdoc.entry hm with
  | inl h =>
    cases h.2 with
    | numCores => exact h32 _
    | mbufsPerSocket => exact h32 _
    | mbufCacheSize => exact h32 _
    | txBurstSize => exact h16 _
    | rxBurstSize => exact h16 _
    | _ => rfl
  | inr h =>
    cases List.mem_pair.mp h with
    | inl heq => exact heq ▸ rfl
    | inr heq => exact heq ▸ h16 _

theorem readString_of_entry (hdoc : c.Document ms) {m : String × Json} (hm : m ∈ entries ms)
    (hne : m.1 ≠ "hugepage_path") :
    (readString m.2).getD getDefaultConfig.hugepagePath = (c.mistaken m.1).hugepagePath := by
  cases hdoc.entry hm with
  | inl h =>
    cases h.2 with
    | hugepagePath => exact absurd rfl hne
    | _ => rfl
  | inr h =>
    cases List.mem_pair.mp h with
    | inl heq => exact heq ▸ rfl
    | inr heq => exact heq ▸ rfl

/-- A core mapping, taken for a port, has its port id. -/
theorem readPort_of_mapping {x : CoreMapping} {ns : List (String × Json)}
    (hns : ns.Perm x.members) : readPort ns = ⟨x.portId, 0, 0, 0, 0⟩ := by
  have hid : ns.lookup "port_id" = some (.nat x.portId.toNat) :=
    lookup_of_perm hns x.nodup_members (by simp [CoreMapping.members])
  have hother : ∀ {k : String}, k ∉ x.members.map Prod.fst → ns.lookup k = none := fun hk =>
    lookup_eq_none (mt (hns.map Prod.fst).mem_iff.mp hk)
  -- a mapping has none of the other four members of a port
  unfold readPort
  rw [hid, hother (by simp [CoreMapping.members]), hother (by simp [CoreMapping.members]),
    hother (by simp [CoreMapping.members]), hother (by simp [CoreMapping.members]),
    Option.bind_some, readNat_uint16]
  rfl

/-- A port, taken for a core mapping, has its id too. -/
theorem readCoreMapping_of_port {p : PortConfig} {ns : List (String × Json)}
    (hns : ns.Perm p.members) : readCoreMapping ns = ⟨0, p.portId, 0, false⟩ := by
  have hid : ns.lookup "port_id" = some (.nat p.portId.toNat) :=
    lookup_of_perm hns p.nodup_members (by simp [PortConfig.members])
  have hother : ∀ {k : String}, k ∉ p.members.map Prod.fst → ns.lookup k = none := fun hk =>
    lookup_eq_none (mt (hns.map Prod.fst).mem_iff.mp hk)
  unfold readCoreMapping
  rw [hid, hother (by simp [PortConfig.members]), hother (by simp [PortConfig.members]),
    hother (by simp [PortConfig.members]), Option.bind_some, readNat_uint16]
  rfl

theorem readPorts_of_entry (hdoc : c.Document ms) {m : String × Json} (hm : m ∈ entries ms)
    (hne : m.1 ≠ "ports") :
    (readItems m.2).elim getDefaultConfig.ports (·.map readPort) = (c.mistaken m.1).ports := by
  cases hdoc.entry hm with
  | inl h =>
    cases h.2 with
    | ports => exact absurd rfl hne
    | coreMappings hos =>
      rw [readItems_arr, Option.elim_some]
      exact map_read_of_forall₂ (fun h => readPort_of_mapping h) hos
    | _ => rfl
  | inr h =>
    cases List.mem_pair.mp h with
    | inl heq => exact heq ▸ rfl
    | inr heq => exact heq ▸ rfl

theorem readMappings_of_entry (hdoc : c.Document ms) {m : String × Json} (hm : m ∈ entries ms)
    (hne : m.1 ≠ "core_mappings") :
    (readItems m.2).elim getDefaultConfig.coreMappings (·.map readCoreMapping) =
      (c.mistaken m.1).coreMappings := by
  cases hdoc.entry hm with
  | inl h =>
    cases h.2 with
    | coreMappings => exact absurd rfl hne
    | ports hos =>
      rw [readItems_arr, Option.elim_some]
      exact map_read_of_forall₂ (fun h => readCoreMapping_of_port h) hos
    | _ => rfl
  | inr h =>
    cases List.mem_pair.mp h with
    | inl heq => exact heq ▸ rfl
    | inr heq => exact heq ▸ rfl

/-- Only the control plane's object is read as an object. -/
theorem readMembers_of_entry (hdoc : c.Document ms) {m : String × Json} (hm : m ∈ entries ms)
    (hne : m.1 ≠ "grpc_config") : readMembers m.2 = none := by
  cases hdoc.entry hm with
  | inl h =>
    cases h.2 with
    | grpcConfig => exact absurd rfl hne
    | _ => rfl
  | inr h =>
    cases List.mem_pair.mp h with
    | inl heq => exact heq ▸ rfl
    | inr heq => exact heq ▸ rfl

/-! ## The whole configuration -/

/-- What a field of numbers is given where the search for its name ends. -/
theorem read_number_iff (hdoc : c.Document ms) (hk : k ∈ topNames) {α : Type} {cut : UInt64 → α}
    {ofNat : Nat → α} (hcut : ∀ n, cut (UInt64.ofNat n) = ofNat n) {d : α} (field : AppConfig → α)
    (hfield : ∀ n, field (c.mistaken n) = ((c.numberOf n).map ofNat).getD d)
    (hlookup : (((ms.lookup k).bind readNat).map cut).getD d =
      field (c.withDefaults (ms.map Prod.fst))) :
    ((((target k (entries ms)).map Prod.snd).bind readNat).map cut).getD d =
        (((ms.lookup k).bind readNat).map cut).getD d ↔ c.Finds ms k field := by
  refine read_target_eq_iff hdoc hk (fun v => ((v.bind readNat).map cut).getD d) field hlookup ?_
  intro m hm _
  have hcomp : cut ∘ UInt64.ofNat = ofNat := funext hcut
  rw [Option.bind_some, readNat_of_entry hdoc hm, hfield, Option.map_map, hcomp]

/-- What is read where the searches end is the configuration exactly when every search ends at its
    member, or by chance at a value that is right. -/
theorem read_target_iff (hdoc : c.Document ms) :
    read (fun k => (target k (entries ms)).map Prod.snd) = read (ms.lookup ·) ↔ c.Found ms := by
  have hread := read_lookup hdoc
  -- one search for each field
  have h32 : ∀ n : Nat, (UInt64.ofNat n).toUInt32 = UInt32.ofNat n := UInt64.toUInt32_ofNat'
  have h16 : ∀ n : Nat, (UInt64.ofNat n).toUInt16 = UInt16.ofNat n := UInt64.toUInt16_ofNat'
  have hpath := read_target_eq_iff hdoc (k := "hugepage_path") (by decide)
    (fun v => (v.bind readString).getD getDefaultConfig.hugepagePath) AppConfig.hugepagePath
    (congrArg AppConfig.hugepagePath hread) fun m hm hne => readString_of_entry hdoc hm hne
  have hcores := read_number_iff hdoc (k := "num_cores") (by decide) h32 AppConfig.numCores
    (fun _ => rfl) (congrArg AppConfig.numCores hread)
  have hsocket := read_number_iff hdoc (k := "mbufs_per_socket") (by decide) h32
    AppConfig.mbufsPerSocket (fun _ => rfl) (congrArg AppConfig.mbufsPerSocket hread)
  have hcache := read_number_iff hdoc (k := "mbuf_cache_size") (by decide) h32
    AppConfig.mbufCacheSize (fun _ => rfl) (congrArg AppConfig.mbufCacheSize hread)
  have htx := read_number_iff hdoc (k := "tx_burst_size") (by decide) h16 AppConfig.txBurstSize
    (fun _ => rfl) (congrArg AppConfig.txBurstSize hread)
  have hrx := read_number_iff hdoc (k := "rx_burst_size") (by decide) h16 AppConfig.rxBurstSize
    (fun _ => rfl) (congrArg AppConfig.rxBurstSize hread)
  have hports := read_target_eq_iff hdoc (k := "ports") (by decide)
    (fun v => (v.bind readItems).elim getDefaultConfig.ports (·.map readPort)) AppConfig.ports
    (congrArg AppConfig.ports hread) fun m hm hne => readPorts_of_entry hdoc hm hne
  have hmappings := read_target_eq_iff hdoc (k := "core_mappings") (by decide)
    (fun v => (v.bind readItems).elim getDefaultConfig.coreMappings (·.map readCoreMapping))
    AppConfig.coreMappings (congrArg AppConfig.coreMappings hread)
    fun m hm hne => readMappings_of_entry hdoc hm hne
  have hgrpc := read_target_eq_iff hdoc (k := "grpc_config") (by decide)
    (fun v => (v.bind readMembers).elim getDefaultConfig.grpcConfig
      (readGrpc getDefaultConfig.grpcConfig)) AppConfig.grpcConfig
    (congrArg AppConfig.grpcConfig hread) fun m hm hne => by
      rw [Option.bind_some, readMembers_of_entry hdoc hm hne]
      rfl
  constructor
  · intro h
    exact ⟨hpath.mp (congrArg AppConfig.hugepagePath h), hcores.mp (congrArg AppConfig.numCores h),
      hsocket.mp (congrArg AppConfig.mbufsPerSocket h),
      hcache.mp (congrArg AppConfig.mbufCacheSize h), htx.mp (congrArg AppConfig.txBurstSize h),
      hrx.mp (congrArg AppConfig.rxBurstSize h), hports.mp (congrArg AppConfig.ports h),
      hmappings.mp (congrArg AppConfig.coreMappings h),
      hgrpc.mp (congrArg AppConfig.grpcConfig h)⟩
  · intro h
    unfold read
    rw [AppConfig.mk.injEq]
    exact ⟨hpath.mpr h.hugepagePath, hcores.mpr h.numCores, hports.mpr h.ports,
      hmappings.mpr h.coreMappings, hgrpc.mpr h.grpcConfig, hsocket.mpr h.mbufsPerSocket,
      hcache.mpr h.mbufCacheSize, htx.mpr h.txBurstSize, hrx.mpr h.rxBurstSize⟩

end

end TrafficGen.AppConfig
