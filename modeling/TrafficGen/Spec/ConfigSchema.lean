import Mathlib.Data.List.Perm.Basic
import TrafficGen.Spec.ConfigSearch

/-!
# The configuration schema

Which documents describe a configuration: an object of any of the nine top-level members in any
order, the members of each inner object in any order too. Strings stand in a document as they
stand in the configuration, so a document is legible to the parser when they hold nothing it
takes for part of the document.
-/

namespace TrafficGen.AppConfig

open Json (Token IsPunct)
open ConfigParser (IsName IsWord isWord_repr isWord_bool Flat)

/-! ## Documents -/

namespace PortConfig

/-- The members that describe a port. -/
def members (p : PortConfig) : List (String × Json) :=
  [("port_id", .nat p.portId.toNat), ("nb_rx_queues", .nat p.nbRxQueues.toNat),
    ("nb_tx_queues", .nat p.nbTxQueues.toNat), ("nb_rx_desc", .nat p.nbRxDesc.toNat),
    ("nb_tx_desc", .nat p.nbTxDesc.toNat)]

end PortConfig

namespace CoreMapping

/-- The members that describe a core mapping. -/
def members (m : CoreMapping) : List (String × Json) :=
  [("core_id", .nat m.coreId.toNat), ("port_id", .nat m.portId.toNat),
    ("queue_id", .nat m.queueId.toNat), ("enable_rx", .bool m.enableRx)]

end CoreMapping

namespace GRPCConfig

/-- The members that describe the control plane's address. -/
def members (g : GRPCConfig) : List (String × Json) :=
  [("listen_address", .str g.listenAddress), ("port", .nat g.port.toNat)]

end GRPCConfig

/-- The member describes one field of the configuration. -/
inductive Describes (c : AppConfig) : String × Json → Prop
  | hugepagePath : Describes c ("hugepage_path", .str c.hugepagePath)
  | numCores : Describes c ("num_cores", .nat c.numCores.toNat)
  | mbufsPerSocket : Describes c ("mbufs_per_socket", .nat c.mbufsPerSocket.toNat)
  | mbufCacheSize : Describes c ("mbuf_cache_size", .nat c.mbufCacheSize.toNat)
  | txBurstSize : Describes c ("tx_burst_size", .nat c.txBurstSize.toNat)
  | rxBurstSize : Describes c ("rx_burst_size", .nat c.rxBurstSize.toNat)
  | ports {os : List (List (String × Json))}
      (hos : List.Forall₂ (fun ms p => ms.Perm p.members) os c.ports) :
      Describes c ("ports", .arr (os.map .obj))
  | coreMappings {os : List (List (String × Json))}
      (hos : List.Forall₂ (fun ms m => ms.Perm m.members) os c.coreMappings) :
      Describes c ("core_mappings", .arr (os.map .obj))
  | grpcConfig {ms : List (String × Json)} (hms : ms.Perm c.grpcConfig.members) :
      Describes c ("grpc_config", .obj ms)

/-- An object whose members, none twice, describe fields of the configuration. -/
structure Document (c : AppConfig) (ms : List (String × Json)) : Prop where
  nodup : (ms.map Prod.fst).Nodup
  describes : ∀ m ∈ ms, c.Describes m

/-- The configuration a document stands for: defaults for the members left out. -/
def withDefaults (c : AppConfig) (names : List String) : AppConfig :=
  let d := ConfigParser.getDefaultConfig
  { hugepagePath := if "hugepage_path" ∈ names then c.hugepagePath else d.hugepagePath
    numCores := if "num_cores" ∈ names then c.numCores else d.numCores
    mbufsPerSocket := if "mbufs_per_socket" ∈ names then c.mbufsPerSocket else d.mbufsPerSocket
    mbufCacheSize := if "mbuf_cache_size" ∈ names then c.mbufCacheSize else d.mbufCacheSize
    txBurstSize := if "tx_burst_size" ∈ names then c.txBurstSize else d.txBurstSize
    rxBurstSize := if "rx_burst_size" ∈ names then c.rxBurstSize else d.rxBurstSize
    ports := if "ports" ∈ names then c.ports else d.ports
    coreMappings := if "core_mappings" ∈ names then c.coreMappings else d.coreMappings
    grpcConfig := if "grpc_config" ∈ names then c.grpcConfig else d.grpcConfig }

/-- The names of the top-level members. -/
def topNames : List String :=
  ["hugepage_path", "num_cores", "mbufs_per_socket", "mbuf_cache_size", "tx_burst_size",
    "rx_burst_size", "ports", "core_mappings", "grpc_config"]

/-- The names of the members of the control plane's object. -/
def grpcNames : List String := ["listen_address", "port"]

/-- The names of the members of an array's entries. -/
def entryNames : List String :=
  ["port_id", "nb_rx_queues", "nb_tx_queues", "nb_rx_desc", "nb_tx_desc", "core_id", "queue_id",
    "enable_rx"]

/-- A name of letters, digits and underscores. -/
def IsIdent (k : String) : Prop :=
  k.toList ≠ [] ∧ ∀ c ∈ k.toList, c.isAlphanum = true ∨ c = '_'

theorem isIdent_of_mem : ∀ k ∈ topNames ++ grpcNames ++ entryNames, IsIdent k := by
  have hall : ∀ k ∈ topNames ++ grpcNames ++ entryNames, k.toList ≠ [] ∧
      k.toList.all (fun c => c.isAlphanum = true ∨ c = '_') = true := by decide
  intro k hk
  exact ⟨(hall k hk).1, List.all_iff_forall_prop.mp (hall k hk).2⟩

theorem IsIdent.not_mem {k : String} (hk : IsIdent k) {d : Char} (hd : d.isAlphanum = false)
    (hd' : d ≠ '_') : d ∉ k.toList := by
  intro hmem
  cases hk.2 d hmem with
  | inl h => cases hd.symm.trans h
  | inr h => exact hd' h

theorem IsIdent.isName {k : String} (hk : IsIdent k) : IsName k := by
  refine ⟨⟨hk.not_mem (by decide) (by decide), ?_⟩, hk.not_mem (by decide) (by decide)⟩
  cases hchars : k.toList with
  | nil => exact absurd hchars hk.1
  | cons c cs =>
    have hc : c ∈ k.toList := hchars ▸ List.mem_cons_self
    refine ⟨c, rfl, ?_, ?_⟩
    · intro hspace
      exact absurd hc (hk.not_mem (by rcases hspace with rfl | rfl | rfl | rfl <;> decide)
        (by rcases hspace with rfl | rfl | rfl | rfl <;> decide))
    · intro hpunct
      exact absurd hc (hk.not_mem
        (by rcases hpunct with rfl | rfl | rfl | rfl | rfl | rfl <;> decide)
        (by rcases hpunct with rfl | rfl | rfl | rfl | rfl | rfl <;> decide))

theorem isIdent_of_entryNames {k : String} (hk : k ∈ entryNames) : IsIdent k :=
  isIdent_of_mem k (List.mem_append_right _ hk)

theorem isIdent_of_searchNames {k : String} (hk : k ∈ topNames ++ grpcNames) : IsIdent k :=
  isIdent_of_mem k (List.mem_append_left _ hk)

/-! ## Entries of arrays -/

/-- A member of an entry: a number or a truth value. -/
structure IsWordMember (m : String × Json) : Prop where
  name : m.1 ∈ entryNames
  word : ∃ w, IsWord w ∧ m.2 = .word w
  enableRx : m.1 = "enable_rx" → ∃ b, m.2 = .bool b

theorem isWordMember_nat {k : String} (hk : k ∈ entryNames ∧ k ≠ "enable_rx") (n : Nat) :
    IsWordMember (k, .nat n) :=
  ⟨hk.1, ⟨n.repr, isWord_repr n, rfl⟩, fun h => absurd h hk.2⟩

theorem PortConfig.isWordMember (p : PortConfig) : ∀ m ∈ p.members, IsWordMember m := by
  simp only [members, List.forall_mem_cons, List.not_mem_nil, false_imp_iff, implies_true,
    and_true]
  refine ⟨?_, ?_, ?_, ?_, ?_⟩
  all_goals exact isWordMember_nat (by decide) _

theorem CoreMapping.isWordMember (m : CoreMapping) : ∀ x ∈ m.members, IsWordMember x := by
  have henable : "enable_rx" ∈ entryNames := by decide
  simp only [members, List.forall_mem_cons, List.not_mem_nil, false_imp_iff, implies_true,
    and_true]
  refine ⟨?_, ?_, ?_, henable, ⟨_, isWord_bool m.enableRx, rfl⟩, fun _ => ⟨_, rfl⟩⟩
  all_goals exact isWordMember_nat (by decide) _

/-- What holds of the members of each value holds in any order of them. -/
theorem forall_mem_of_forall₂_perm {α : Type} {members : α → List (String × Json)}
    {P : String × Json → Prop} (h : ∀ a, ∀ m ∈ members a, P m) {os : List (List (String × Json))}
    {as : List α} (hos : List.Forall₂ (fun ms a => ms.Perm (members a)) os as) :
    ∀ ms ∈ os, ∀ m ∈ ms, P m := by
  induction hos with
  | nil => exact List.forall_mem_nil _
  | cons hperm _ ih =>
    rw [List.forall_mem_cons]
    refine ⟨?_, ih⟩
    intro m hm
    exact h _ m (hperm.mem_iff.mp hm)

theorem not_mem_of_isWord {w : String} (hw : IsWord w) {d : Char} (hd : d.isAlphanum = false) :
    d ∉ w.toList := by
  intro h
  cases hd.symm.trans (hw.2 d h)

/-- The tokens of an entry: its punctuation, words, and names of members. -/
theorem mem_tokens_entry {ms : List (String × Json)} (hms : ∀ m ∈ ms, IsWordMember m) {t : Token}
    (ht : t ∈ (Json.obj ms).tokens) : (∃ d ∈ Json.objPunct, t = .punct d) ∨
      (∃ w, IsWord w ∧ t = .word w) ∨ ∃ n ∈ entryNames, t = .str n := by
  match Json.mem_tokens_obj ht with
  | .inl h => exact .inl h
  | .inr ⟨m, hm, .inl heq⟩ => exact .inr (.inr ⟨m.1, (hms m hm).name, heq⟩)
  | .inr ⟨m, hm, .inr ht⟩ =>
    obtain ⟨w, hw, heq⟩ := (hms m hm).word
    rw [heq] at ht
    exact .inr (.inl ⟨w, hw, List.mem_singleton.mp ht⟩)

/-- An entry holds no square bracket, and no quote within a token. -/
theorem not_mem_chars_of_entry {ms : List (String × Json)} (hms : ∀ m ∈ ms, IsWordMember m)
    {t : Token} (ht : t ∈ (Json.obj ms).tokens) :
    '[' ∉ t.chars ∧ ']' ∉ t.chars ∧ '"' ∉ t.inner := by
  have hpunct : ∀ d ∈ Json.objPunct, '[' ∉ (Token.punct d).chars ∧
      ']' ∉ (Token.punct d).chars ∧ '"' ∉ (Token.punct d).inner :=
    List.all_iff_forall_prop.mp (by decide)
  match mem_tokens_entry hms ht with
  | .inl ⟨d, hd, heq⟩ => exact heq ▸ hpunct d hd
  | .inr (.inl ⟨w, hw, heq⟩) =>
    rw [heq]
    exact ⟨not_mem_of_isWord hw (by decide), not_mem_of_isWord hw (by decide),
      not_mem_of_isWord hw (by decide)⟩
  | .inr (.inr ⟨n, hn, heq⟩) =>
    have hident := isIdent_of_entryNames hn
    rw [heq]
    have hopen : '[' ∉ n.toList := hident.not_mem (by decide) (by decide)
    have hclose : ']' ∉ n.toList := hident.not_mem (by decide) (by decide)
    have hquote : '"' ∉ n.toList := hident.not_mem (by decide) (by decide)
    simpa [Token.chars, Token.inner] using ⟨hopen, hclose, hquote⟩

/-- Inside its own braces an entry holds none. -/
theorem flat_of_isWordMember {ms : List (String × Json)} (hms : ∀ m ∈ ms, IsWordMember m) :
    Flat ms := by
  intro m hm
  obtain ⟨w, hw, heq⟩ := (hms m hm).word
  have hident := isIdent_of_entryNames (hms m hm).name
  refine ⟨hident.not_mem (by decide) (by decide), hident.not_mem (by decide) (by decide), ?_⟩
  intro t ht
  rw [heq] at ht
  cases List.mem_singleton.mp ht
  exact ⟨not_mem_of_isWord hw (by decide), not_mem_of_isWord hw (by decide)⟩

/-! ## Members of a document -/

variable {c : AppConfig} {m : String × Json}

/-- What a described member can be, as one statement. -/
theorem Describes.cases (h : c.Describes m) :
    m = ("hugepage_path", .str c.hugepagePath) ∨ m = ("num_cores", .nat c.numCores.toNat) ∨
    m = ("mbufs_per_socket", .nat c.mbufsPerSocket.toNat) ∨
    m = ("mbuf_cache_size", .nat c.mbufCacheSize.toNat) ∨
    m = ("tx_burst_size", .nat c.txBurstSize.toNat) ∨
    m = ("rx_burst_size", .nat c.rxBurstSize.toNat) ∨
    (m.1 = "ports" ∧ ∃ os : List (List (String × Json)), m.2 = .arr (os.map .obj) ∧
      List.Forall₂ (fun ms p => ms.Perm p.members) os c.ports) ∨
    (m.1 = "core_mappings" ∧ ∃ os : List (List (String × Json)), m.2 = .arr (os.map .obj) ∧
      List.Forall₂ (fun ms x => ms.Perm x.members) os c.coreMappings) ∨
    (m.1 = "grpc_config" ∧ ∃ ms : List (String × Json), m.2 = .obj ms ∧
      ms.Perm c.grpcConfig.members) := by
  cases h with
  | ports hos => simpa using ⟨_, rfl, hos⟩
  | coreMappings hos => simpa using ⟨_, rfl, hos⟩
  | grpcConfig hms => simpa using hms
  | _ => simp

theorem Describes.name (h : c.Describes m) : m.1 ∈ topNames := by
  cases h
  all_goals simp [topNames]

/-- The value of a member: a number, the path, an array of entries, or the control plane's
    object. -/
theorem Describes.value (h : c.Describes m) :
    (∃ n, m.2 = .nat n) ∨ m.2 = .str c.hugepagePath ∨
      (∃ os : List (List (String × Json)), m.2 = .arr (os.map .obj) ∧
        ∀ ms ∈ os, ∀ x ∈ ms, IsWordMember x) ∨
      ∃ ms : List (String × Json), m.2 = .obj ms ∧ ms.Perm c.grpcConfig.members := by
  cases h with
  | hugepagePath => exact .inr (.inl rfl)
  | ports hos =>
    exact .inr (.inr (.inl
      ⟨_, rfl, forall_mem_of_forall₂_perm PortConfig.isWordMember hos⟩))
  | coreMappings hos =>
    exact .inr (.inr (.inl
      ⟨_, rfl, forall_mem_of_forall₂_perm CoreMapping.isWordMember hos⟩))
  | grpcConfig hms => exact .inr (.inr (.inr ⟨_, rfl, hms⟩))
  | _ => exact .inl ⟨_, rfl⟩

/-- The tokens of a document of entries. -/
theorem not_mem_tokens_items {os : List (List (String × Json))}
    (hos : ∀ ms ∈ os, ∀ m ∈ ms, IsWordMember m) {t : Token}
    (ht : t ∈ (Json.arr (os.map .obj)).tokens) :
    '"' ∉ t.inner ∧ ∀ k ∉ entryNames, t ≠ .str k := by
  rcases Json.mem_tokens_arr ht with ⟨d, hd, heq⟩ | ⟨v, hv, ht⟩
  · have hquote : '"' ≠ d := fun h => absurd (h ▸ hd) (by decide)
    rw [heq]
    exact ⟨by simpa [Token.inner] using hquote, fun _ _ => by simp⟩
  · obtain ⟨ms, hms, rfl⟩ := List.mem_map.mp hv
    refine ⟨(not_mem_chars_of_entry (hos ms hms) ht).2.2, ?_⟩
    intro k hk heq
    rcases mem_tokens_entry (hos ms hms) ht with ⟨_, _, hpunct⟩ | ⟨_, _, hword⟩ | ⟨n, hn, hname⟩
    · cases heq.symm.trans hpunct
    · cases heq.symm.trans hword
    · exact hk (Token.str.inj (heq.symm.trans hname) ▸ hn)

section

open ConfigParser (Passable passable_of_not_mem passable_obj isStr membersOf Ends)

variable {P : Json → List Token → Prop} {k : String}

theorem passable_nat (hk : IsName k) {n : String} (hn : IsName n) (x : Nat) :
    Passable P k (n, .nat x) := by
  apply passable_of_not_mem hk hn rfl
  · intro t ht
    cases List.mem_singleton.mp ht
    exact not_mem_of_isWord (isWord_repr x) (by decide)
  · intro _ hmem
    cases List.mem_singleton.mp hmem

theorem passable_str (hk : IsName k) {n : String} (hn : IsName n) {body : String}
    (hquote : '"' ∉ body.toList) : Passable P k (n, .str body) := by
  apply passable_of_not_mem hk hn rfl
  · intro t ht
    cases List.mem_singleton.mp ht
    exact hquote
  · intro hstr hmem
    rw [Token.str.inj (List.mem_singleton.mp hmem)] at hstr
    exact absurd hstr (by simp [isStr])

/-- A search can pass any member of a document whose strings hold no quote. -/
theorem Describes.passable (h : c.Describes m) (hk : k ∈ topNames ++ grpcNames)
    (hquote : ∀ b, .str b ∈ m.2.tokens → '"' ∉ b.toList)
    (hP : ∀ {v us ts}, (∀ ns, v ≠ .obj ns) → P v (Json.tokensAfter us ++ ts)) :
    Passable P k m := by
  have hkname := (isIdent_of_searchNames hk).isName
  have hname := (isIdent_of_searchNames (List.mem_append_left grpcNames h.name)).isName
  obtain ⟨n, v⟩ := m
  match h.value with
  | .inl ⟨x, hx⟩ =>
    cases hx
    exact passable_nat hkname hname x
  | .inr (.inl hv) =>
    cases hv
    exact passable_str hkname hname (hquote _ List.mem_cons_self)
  | .inr (.inr (.inl ⟨os, hv, hos⟩)) =>
    cases hv
    have hdisjoint : ∀ k ∈ topNames ++ grpcNames, k ∉ entryNames := by decide
    apply passable_of_not_mem hkname hname rfl
    · exact fun t ht => (not_mem_tokens_items hos ht).1
    · exact fun _ hmem => (not_mem_tokens_items hos hmem).2 k (hdisjoint k hk) rfl
  | .inr (.inr (.inr ⟨ns, hv, hns⟩)) =>
    cases hv
    have hgrpc : ∀ n ∈ grpcNames, IsName n := fun n hn =>
      (isIdent_of_searchNames (List.mem_append_right topNames hn)).isName
    have hmem : ∀ x ∈ ns, x = ("listen_address", .str c.grpcConfig.listenAddress) ∨
        x = ("port", .nat c.grpcConfig.port.toNat) := by
      intro x hx
      rwa [hns.mem_iff, GRPCConfig.members, List.mem_pair] at hx
    apply passable_obj hkname hname
    · intro x hx
      cases hmem x hx with
      | inl heq =>
        subst heq
        apply passable_str hkname (hgrpc _ (by decide))
        exact hquote _ (Json.mem_tokens_of_mem hx List.mem_cons_self)
      | inr heq =>
        subst heq
        exact passable_nat hkname (hgrpc _ (by decide)) _
    · intro x hx
      cases hmem x hx with
      | inl heq => subst heq; rfl
      | inr heq => subst heq; rfl
    · intro x hx us ts
      apply hP
      cases hmem x hx with
      | inl heq => simp [heq]
      | inr heq => simp [heq, Json.nat]

end

end TrafficGen.AppConfig
