import TrafficGen.Spec.ConfigReader

/-!
# Configuration round trip

A text that renders a document of a configuration is parsed to that configuration, with defaults
for the members left out.

## Key results

- `read_lookup`: the members of a document give the configuration it describes
- `target_of_plain`: in a document of plain strings every search ends at the member it is for
- `parseFromString_of_renders`: the round trip
-/

namespace TrafficGen

open Json (Token Renders)

namespace AppConfig

open ConfigParser

/-! ## Members by name -/

/-- In a list that names none twice, each member is found under its name. -/
theorem lookup_of_mem {l : List (String × Json)} (hnodup : (l.map Prod.fst).Nodup) {k : String}
    {v : Json} (h : (k, v) ∈ l) : l.lookup k = some v := by
  induction l with
  | nil => exact absurd h List.not_mem_nil
  | cons m l ih =>
    rw [List.map_cons, List.nodup_cons] at hnodup
    rw [List.lookup_cons]
    cases List.mem_cons.mp h with
    | inl heq =>
      subst heq
      simp
    | inr hmem =>
      have hne : (k == m.1) = false := by
        apply beq_eq_false_iff_ne.mpr
        intro heq
        exact hnodup.1 (heq ▸ List.mem_map_of_mem hmem)
      rw [hne]
      exact ih hnodup.2 hmem

/-- So is it in any order of the list. -/
theorem lookup_of_perm {ns l : List (String × Json)} (hperm : ns.Perm l)
    (hnodup : (l.map Prod.fst).Nodup) {k : String} {v : Json} (h : (k, v) ∈ l) :
    ns.lookup k = some v :=
  lookup_of_mem ((hperm.map Prod.fst).nodup_iff.mpr hnodup) (hperm.mem_iff.mpr h)

theorem lookup_eq_none {l : List (String × Json)} {k : String} (h : k ∉ l.map Prod.fst) :
    l.lookup k = none := by
  apply List.lookup_eq_none_iff.mpr
  intro m hm
  apply bne_iff_ne.mpr
  intro heq
  exact h (heq ▸ List.mem_map_of_mem hm)

theorem toUInt16_ofNat_toNat (n : UInt16) : (UInt64.ofNat n.toNat).toUInt16 = n := by
  simp

theorem toUInt32_ofNat_toNat (n : UInt32) : (UInt64.ofNat n.toNat).toUInt32 = n := by
  simp

theorem readNat_uint16 (n : UInt16) :
    (readNat (.nat n.toNat)).map UInt64.toUInt16 = some n := by
  have hn : n.toNat < UInt64.size := Nat.lt_trans n.toNat_lt (by decide)
  show (strtoull n.toNat.repr.toList).map _ = _
  rw [strtoull_repr hn, Option.map_some, toUInt16_ofNat_toNat]

theorem readNat_uint32 (n : UInt32) :
    (readNat (.nat n.toNat)).map UInt64.toUInt32 = some n := by
  have hn : n.toNat < UInt64.size := Nat.lt_trans n.toNat_lt (by decide)
  show (strtoull n.toNat.repr.toList).map _ = _
  rw [strtoull_repr hn, Option.map_some, toUInt32_ofNat_toNat]

/-! ## Entries -/

theorem PortConfig.nodup_members (p : PortConfig) : (p.members.map Prod.fst).Nodup := by
  show ["port_id", "nb_rx_queues", "nb_tx_queues", "nb_rx_desc", "nb_tx_desc"].Nodup
  decide

theorem CoreMapping.nodup_members (m : CoreMapping) : (m.members.map Prod.fst).Nodup := by
  show ["core_id", "port_id", "queue_id", "enable_rx"].Nodup
  decide

theorem GRPCConfig.nodup_members (g : GRPCConfig) : (g.members.map Prod.fst).Nodup := by
  show ["listen_address", "port"].Nodup
  decide

theorem readPort_of_perm {p : PortConfig} {ns : List (String × Json)} (hns : ns.Perm p.members) :
    readPort ns = p := by
  have hread : ∀ {k : String} {n : UInt16}, (k, .nat n.toNat) ∈ p.members →
      (((ns.lookup k).bind readNat).map UInt64.toUInt16).getD 0 = n := by
    intro k n hmem
    rw [lookup_of_perm hns p.nodup_members hmem, Option.bind_some, readNat_uint16,
      Option.getD_some]
  unfold readPort
  congr
  all_goals exact hread (by simp [PortConfig.members])

theorem readCoreMapping_of_perm {x : CoreMapping} {ns : List (String × Json)}
    (hns : ns.Perm x.members) : readCoreMapping ns = x := by
  have hlookup : ∀ {k v}, (k, v) ∈ x.members → ns.lookup k = some v :=
    lookup_of_perm hns x.nodup_members
  have hbool : readBool (.bool x.enableRx) = some x.enableRx := by
    cases x.enableRx
    all_goals rfl
  unfold readCoreMapping
  rw [hlookup (v := .nat x.coreId.toNat) (by simp [CoreMapping.members]),
    hlookup (v := .nat x.portId.toNat) (by simp [CoreMapping.members]),
    hlookup (v := .nat x.queueId.toNat) (by simp [CoreMapping.members]),
    hlookup (v := .bool x.enableRx) (by simp [CoreMapping.members])]
  simp only [Option.bind_some, readNat_uint16, readNat_uint32, hbool, Option.getD_some]

theorem readGrpc_of_perm {g : GRPCConfig} {ns : List (String × Json)} (hns : ns.Perm g.members)
    (d : GRPCConfig) : readGrpc d ns = g := by
  have hlookup : ∀ {k v}, (k, v) ∈ g.members → ns.lookup k = some v :=
    lookup_of_perm hns g.nodup_members
  unfold readGrpc
  rw [hlookup (v := .str g.listenAddress) (by simp [GRPCConfig.members]),
    hlookup (v := .nat g.port.toNat) (by simp [GRPCConfig.members])]
  simp only [Option.bind_some, readNat_uint16, readString, Option.getD_some]

/-- The entries of an array are read one by one. -/
theorem map_read_of_forall₂ {α β : Type} {members : α → List (String × Json)}
    {read : List (String × Json) → β} {f : α → β}
    (hread : ∀ {a ns}, ns.Perm (members a) → read ns = f a)
    {os : List (List (String × Json))} {as : List α}
    (hos : List.Forall₂ (fun ns a => ns.Perm (members a)) os as) : os.map read = as.map f := by
  induction hos with
  | nil => rfl
  | cons hperm _ ih => rw [List.map_cons, List.map_cons, hread hperm, ih]

/-! ## The whole document -/

section

variable {c : AppConfig} {ms : List (String × Json)} (hdoc : c.Document ms)
include hdoc

/-- A field is what its member holds, or the default. -/
theorem field_of_lookup {k : String} {α : Type} (read : Json → Option α) {a : α}
    (hread : ∀ v, c.Describes (k, v) → read v = some a) (d : α) :
    ((ms.lookup k).bind read).getD d = if k ∈ ms.map Prod.fst then a else d := by
  by_cases hmem : k ∈ ms.map Prod.fst
  · obtain ⟨m, hm, rfl⟩ := List.mem_map.mp hmem
    rw [if_pos hmem, lookup_of_mem hdoc.nodup hm, Option.bind_some,
      hread m.2 (hdoc.describes m hm), Option.getD_some]
  · rw [if_neg hmem, lookup_eq_none hmem]
    rfl

theorem field_of_nat {k : String} {n : Nat} {α : Type} {cut : UInt64 → α} {a : α}
    (hdesc : ∀ v, c.Describes (k, v) → v = .nat n) (hcut : (readNat (.nat n)).map cut = some a)
    (d : α) :
    (((ms.lookup k).bind readNat).map cut).getD d = if k ∈ ms.map Prod.fst then a else d := by
  rw [← field_of_lookup hdoc (fun v => (readNat v).map cut)
    (fun v hv => hdesc v hv ▸ hcut) d, Option.map_bind]
  rfl

/-- The entries of an array member may have their own members in any order. -/
theorem field_of_items {k : String} {α : Type} {members : α → List (String × Json)}
    {read : List (String × Json) → α} {as : List α}
    (hdesc : ∀ v, c.Describes (k, v) → ∃ os, v = .arr (os.map .obj) ∧
      List.Forall₂ (fun ns a => ns.Perm (members a)) os as)
    (hread : ∀ {a ns}, ns.Perm (members a) → read ns = a) (d : List α) :
    ((ms.lookup k).bind readItems).elim d (·.map read) =
      if k ∈ ms.map Prod.fst then as else d := by
  rw [← field_of_lookup hdoc fun v => (readItems v).map (·.map read)]
  · cases ms.lookup k with
    | none => rfl
    | some v => cases h : readItems v with
      | none => simp [h]
      | some os => simp [h]
  · intro v hv
    obtain ⟨os, rfl, hos⟩ := hdesc v hv
    have hentries := map_read_of_forall₂ (f := id) hread hos
    rw [List.map_id] at hentries
    rw [readItems_arr, Option.map_some, hentries]

theorem field_of_grpc (d : GRPCConfig) :
    ((ms.lookup "grpc_config").bind readMembers).elim d (readGrpc d) =
      if "grpc_config" ∈ ms.map Prod.fst then c.grpcConfig else d := by
  rw [← field_of_lookup hdoc fun v => (readMembers v).map (readGrpc d)]
  · cases ms.lookup "grpc_config" with
    | none => rfl
    | some v => cases h : readMembers v with
      | none => simp [h]
      | some ns => simp [h]
  · intro v hv
    obtain ⟨ns, rfl, hns⟩ : ∃ ns, v = .obj ns ∧ ns.Perm c.grpcConfig.members := by
      simpa using hv.cases
    simp [readMembers, readGrpc_of_perm hns]

/-- The members of a document give the configuration it describes. -/
theorem read_lookup : read (ms.lookup ·) = c.withDefaults (ms.map Prod.fst) := by
  unfold read withDefaults
  simp only [AppConfig.mk.injEq]
  refine ⟨?_, ?_, ?_, ?_, ?_, ?_, ?_, ?_, ?_⟩
  · exact field_of_lookup hdoc readString (fun v hv => by
      obtain rfl : v = .str c.hugepagePath := by simpa using hv.cases
      rfl) _
  · exact field_of_nat hdoc (fun v hv => by simpa using hv.cases) (readNat_uint32 c.numCores) _
  · exact field_of_items hdoc (fun v hv => by simpa using hv.cases) (fun h => readPort_of_perm h) _
  · exact field_of_items hdoc (fun v hv => by simpa using hv.cases)
      (fun h => readCoreMapping_of_perm h) _
  · exact field_of_grpc hdoc _
  · exact field_of_nat hdoc (fun v hv => by simpa using hv.cases)
      (readNat_uint32 c.mbufsPerSocket) _
  · exact field_of_nat hdoc (fun v hv => by simpa using hv.cases) (readNat_uint32 c.mbufCacheSize) _
  · exact field_of_nat hdoc (fun v hv => by simpa using hv.cases) (readNat_uint16 c.txBurstSize) _
  · exact field_of_nat hdoc (fun v hv => by simpa using hv.cases) (readNat_uint16 c.rxBurstSize) _

end

/-! ## Plain strings -/

/-- A string that is no name of the schema and holds no quote, backslash or brace. -/
structure IsPlain (s : String) : Prop where
  chars : ∀ d ∈ s.toList, d ≠ '"' ∧ d ≠ '\\' ∧ d ≠ '{' ∧ d ≠ '}'
  notName : s ∉ topNames ++ grpcNames ++ entryNames

/-- Both strings of a configuration are plain. -/
structure HasPlainStrings (c : AppConfig) : Prop where
  hugepagePath : IsPlain c.hugepagePath
  listenAddress : IsPlain c.grpcConfig.listenAddress

section

variable {c : AppConfig} {ms : List (String × Json)}

/-- What a string of an entry's tokens is. -/
theorem Describes.str_mem_tokens {m : String × Json} (h : c.Describes m) {b : String}
    (hb : .str b ∈ m.2.tokens) : b ∈ grpcNames ++ entryNames ∨
      m.1 = "hugepage_path" ∧ b = c.hugepagePath ∨
      m.1 = "grpc_config" ∧ b = c.grpcConfig.listenAddress := by
  have hitems : ∀ {os : List (List (String × Json))}, (∀ ns ∈ os, ∀ x ∈ ns, IsWordMember x) →
      .str b ∈ (Json.arr (os.map .obj)).tokens → b ∈ grpcNames ++ entryNames := by
    intro os hos hb
    by_contra hname
    rw [List.mem_append, not_or] at hname
    exact (not_mem_tokens_items hos hb).2 b hname.2 rfl
  cases h with
  | hugepagePath => exact .inr (.inl ⟨rfl, Token.str.inj (List.mem_singleton.mp hb)⟩)
  | ports hos =>
    exact .inl (hitems (forall_mem_of_forall₂_perm PortConfig.isWordMember hos) hb)
  | coreMappings hos =>
    exact .inl (hitems (forall_mem_of_forall₂_perm CoreMapping.isWordMember hos) hb)
  | grpcConfig hns =>
    have hgrpc : ∀ x ∈ c.grpcConfig.members, x.1 ∈ grpcNames := by
      simp [GRPCConfig.members, grpcNames]
    rcases Json.mem_tokens_obj hb with ⟨_, _, heq⟩ | ⟨x, hx, heq | hb⟩
    · cases heq
    · rw [hns.mem_iff] at hx
      exact .inl (List.mem_append_left _ (Token.str.inj heq ▸ hgrpc x hx))
    · rw [hns.mem_iff, GRPCConfig.members, List.mem_pair] at hx
      cases hx with
      | inl heq =>
        subst heq
        exact .inr (.inr ⟨rfl, Token.str.inj (List.mem_singleton.mp hb)⟩)
      | inr heq =>
        subst heq
        cases List.mem_singleton.mp hb
  | _ => cases List.mem_singleton.mp hb

/-- The strings of a document are names and its two strings. -/
theorem Document.str_mem_tokens (hdoc : c.Document ms) {b : String}
    (hb : .str b ∈ (Json.obj ms).tokens) : b ∈ topNames ++ grpcNames ++ entryNames ∨
      "hugepage_path" ∈ ms.map Prod.fst ∧ b = c.hugepagePath ∨
      "grpc_config" ∈ ms.map Prod.fst ∧ b = c.grpcConfig.listenAddress := by
  match Json.mem_tokens_obj hb with
  | .inl ⟨_, _, heq⟩ => cases heq
  | .inr ⟨m, hm, .inl heq⟩ =>
    have := (hdoc.describes m hm).name
    rw [← Token.str.inj heq] at this
    exact .inl (List.mem_append_left _ (List.mem_append_left _ this))
  | .inr ⟨m, hm, .inr hb⟩ =>
    match (hdoc.describes m hm).str_mem_tokens hb with
    | .inl hname =>
      rw [List.append_assoc]
      exact .inl (List.mem_append_right _ hname)
    | .inr (.inl ⟨hname, heq⟩) => exact .inr (.inl ⟨hname ▸ List.mem_map_of_mem hm, heq⟩)
    | .inr (.inr ⟨hname, heq⟩) => exact .inr (.inr ⟨hname ▸ List.mem_map_of_mem hm, heq⟩)

/-- A document is verbatim when its two strings hold no quote and no backslash. -/
theorem Document.verbatim (hdoc : c.Document ms)
    (hpath : "hugepage_path" ∈ ms.map Prod.fst → ∀ d ∈ c.hugepagePath.toList, d ≠ '"' ∧ d ≠ '\\')
    (haddress : "grpc_config" ∈ ms.map Prod.fst →
      ∀ d ∈ c.grpcConfig.listenAddress.toList, d ≠ '"' ∧ d ≠ '\\') : Verbatim ms := by
  intro b hb
  match hdoc.str_mem_tokens hb with
  | .inl hname =>
    have hident := isIdent_of_mem b hname
    have hquote : '"' ∉ b.toList := hident.not_mem (by decide) (by decide)
    have hback : '\\' ∉ b.toList := hident.not_mem (by decide) (by decide)
    exact fun d hd => ⟨fun h => hquote (h ▸ hd), fun h => hback (h ▸ hd)⟩
  | .inr (.inl ⟨hmem, heq⟩) => exact heq ▸ hpath hmem
  | .inr (.inr ⟨hmem, heq⟩) => exact heq ▸ haddress hmem

/-- Inner members have other names than those of the document. -/
theorem lookup_entries (hdoc : c.Document ms) {k : String} (hk : k ∈ topNames) :
    (entries ms).lookup k = ms.lookup k := by
  have hinner : ∀ m ∈ ms, (membersOf m.2).lookup k = none := by
    intro m hm
    apply lookup_eq_none
    intro hmem
    obtain ⟨x, hx, rfl⟩ := List.mem_map.mp hmem
    obtain ⟨n, v⟩ := m
    cases v with
    | obj ns =>
      have hmem := (hdoc.describes _ hm).name_of_obj.2.mem_iff.mp hx
      have hgrpc : ∀ x ∈ c.grpcConfig.members, x.1 ∉ topNames := by
        simp [GRPCConfig.members, topNames]
      exact hgrpc x hmem hk
    | _ => exact absurd hx List.not_mem_nil
  clear hdoc
  induction ms with
  | nil => rfl
  | cons m ms ih =>
    rw [List.forall_mem_cons] at hinner
    show List.lookup k (m :: (membersOf m.2 ++ entries ms)) = _
    rw [List.lookup_cons, List.lookup_cons, List.lookup_append, hinner.1, Option.none_or,
      ih hinner.2]

theorem eq_str_of_isStr {k : String} {v : Json} (h : isStr k v = true) : v = .str k := by
  cases v with
  | str b =>
    obtain rfl : b = k := by simpa [isStr] using h
    rfl
  | word _ => cases h
  | arr _ => cases h
  | obj _ => cases h

/-- In a document of plain strings every search ends at the member it is for. -/
theorem target_of_plain (hc : c.HasPlainStrings) (hdoc : c.Document ms) {k : String}
    (hk : k ∈ topNames) : (target k (entries ms)).map Prod.snd = ms.lookup k := by
  rw [target_eq_lookup, lookup_entries hdoc hk]
  intro m hm
  unfold entries at hm
  obtain ⟨x, hx, hm⟩ := List.mem_flatMap.mp hm
  have hdisjoint : ∀ k ∈ topNames, k ∉ grpcNames ++ entryNames := by decide
  have htop : k ∈ topNames ++ grpcNames ++ entryNames := by
    rw [List.append_assoc]
    exact List.mem_append_left _ hk
  have hmem : .str k ∉ x.2.tokens := by
    intro hb
    match (hdoc.describes x hx).str_mem_tokens hb with
    | .inl hname => exact hdisjoint k hk hname
    | .inr (.inl ⟨_, heq⟩) => exact hc.hugepagePath.notName (heq ▸ htop)
    | .inr (.inr ⟨_, heq⟩) => exact hc.listenAddress.notName (heq ▸ htop)
  apply Bool.eq_false_iff.mpr
  intro hstr
  have hvalue := eq_str_of_isStr hstr
  apply hmem
  cases List.mem_cons.mp hm with
  | inl heq => exact heq ▸ hvalue ▸ List.mem_cons_self
  | inr hinner =>
    obtain ⟨n, v⟩ := x
    cases v with
    | obj ns => exact Json.mem_tokens_of_mem hinner (hvalue ▸ List.mem_cons_self)
    | _ => exact absurd hinner List.not_mem_nil

end

end AppConfig

namespace ConfigParser

open AppConfig

/-- A text that renders a document of a configuration, with any members left out, in any order
    and with any white space, is parsed to that configuration with defaults for those members. -/
theorem parseFromString_of_renders (c : AppConfig) (hc : c.HasPlainStrings)
    (ms : List (String × Json)) (hms : c.Document ms) (jsonStr : String)
    (h : Renders (Json.obj ms).tokens jsonStr.toList) :
    parseFromString jsonStr = some (c.withDefaults (ms.map Prod.fst)) := by
  have hverb : Verbatim ms := hms.verbatim
    (fun _ d hd => ⟨(hc.hugepagePath.chars d hd).1, (hc.hugepagePath.chars d hd).2.1⟩)
    (fun _ d hd => ⟨(hc.listenAddress.chars d hd).1, (hc.listenAddress.chars d hd).2.1⟩)
  have hbraces : c.BracesClosed (ms.map Prod.fst) := by
    intro _
    apply Or.inl
    apply bracesAfter_of_not_mem
    · exact fun hd => (hc.listenAddress.chars _ hd).2.2.1 rfl
    · exact fun hd => (hc.listenAddress.chars _ hd).2.2.2 rfl
  rw [parseFromString_eq_read hms hverb hbraces h, ← read_lookup hms]
  exact congrArg some (read_congr fun k hk => target_of_plain hc hms hk)

/-- A document of two members, the inner ones in the other order. -/
theorem parseFromString_of_renders_sample :
    parseFromString
      "\x7b\"grpc_config\":\x7b\"port\":9,\"listen_address\":\"::1\"\x7d,\"num_cores\":4\x7d" =
    some { getDefaultConfig with numCores := 4, grpcConfig := ⟨"::1", 9⟩ } := by
  let c : AppConfig := { getDefaultConfig with numCores := 4, grpcConfig := ⟨"::1", 9⟩ }
  let ms : List (String × Json) :=
    [("grpc_config", .obj [("port", .nat 9), ("listen_address", .str "::1")]),
      ("num_cores", .nat 4)]
  have hms : c.Document ms :=
    ⟨by decide, List.forall_mem_cons.mpr ⟨.grpcConfig (.swap _ _ []),
      List.forall_mem_singleton.mpr .numCores⟩⟩
  have hplain : c.HasPlainStrings :=
    ⟨⟨List.all_iff_forall_prop.mp (by decide), by decide⟩,
      ⟨List.all_iff_forall_prop.mp (by decide), by decide⟩⟩
  refine (parseFromString_of_renders c hplain ms hms _ ?_).trans (by decide)
  have hrender : ∀ s, s = (Json.obj ms).tokens.flatMap Token.chars →
      Renders (Json.obj ms).tokens s := fun s hs => hs ▸ Renders.flatMap_chars _
  exact hrender _ (by decide)

end ConfigParser

end TrafficGen
