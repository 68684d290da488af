import Mathlib.Algebra.Group.Nat.Even
import Mathlib.Data.List.Dedup
import Mathlib.Data.List.Perm.Basic
import ReplicaRing.Config.Basic

/-!
Configurations that are accepted, and the first view that is made of one. A configuration is
accepted exactly if it meets every rule, `Config.validate_eq_ok_iff`, and then its first view is
there. That view is a set, while the quorum of a majority is counted on the configured list, where a
node may be named twice; so the quorum is that of a larger view, and it is a majority of the view
itself exactly if no node is named twice, or one is and the view has an even number of members,
`Config.first_quorum_iff`.
-/

namespace ReplicaRing

namespace SortedSet

/-- A set has as many members as a list of them has without its repetitions. -/
lemma size_ofList {α : Type} [Ord α] [Std.TransOrd α] [Std.LawfulEqOrd α] [DecidableEq α]
    (l : List α) : (ofList l).size = l.dedup.length := by
  have hperm : (ofList l).toList.Perm l.dedup := by
    refine (List.perm_ext_iff_of_nodup (nodup_toList _) (List.nodup_dedup l)).2 fun a => ?_
    rw [List.mem_dedup]
    exact mem_ofList
  exact hperm.length_eq

end SortedSet

/-- Of a list that is read without a failure, every entry is read. -/
lemma length_of_mapM {α β ε : Type} {f : α → Except ε β} {l : List α} {r : List β}
    (h : l.mapM f = .ok r) : r.length = l.length := by
  induction l generalizing r with
  | nil =>
    cases h
    rfl
  | cons a l ih =>
    rw [List.mapM_cons] at h
    cases ha : f a with
    | error e => simp [ha, bind, Except.bind] at h
    | ok b =>
      cases hl : l.mapM f with
      | error e => simp [ha, hl, bind, Except.bind] at h
      | ok rest =>
        simp only [ha, hl, bind, Except.bind, pure, Except.pure, Except.ok.injEq] at h
        rw [← h, List.length_cons, List.length_cons, ih hl]

namespace Config

/-- The rules for a configuration. -/
structure Accepted (c : Config) : Prop where
  named : c.node.id ≠ ""
  bound : c.node.bindAddress ≠ ""
  self : ∃ n, c.nodeId = .ok n
  peers : ∃ ns, c.peerIds = .ok ns
  detection : 2 ≤ c.detector.timeoutMs
  quota : c.transfer.quotaBytes ≠ 0
  growth : ¬ c.transfer.backoffMultiplier < 1.0
  pageItems : c.replication.pageItems ≠ 0
  pageBytes : c.replication.pageBytes ≠ 0
  forward : c.router.forwardTimeoutMs ≠ 0
  prune : c.replication.pruneInterval ≠ 0

section

variable {c : Config}

lemma require_eq_ok_iff {condition : Bool} {text : String} {u : Unit} :
    require condition text = .ok u ↔ condition = true := by
  unfold require
  cases condition with
  | true => simp
  | false => simp

/-- What is checked and then not needed leaves the rest to be checked. -/
lemma bind_eq_ok_iff {α : Type} {x : Except Fault α} {rest : Except Fault Unit} :
    (x >>= fun _ => rest) = .ok () ↔ (∃ a, x = .ok a) ∧ rest = .ok () := by
  cases x with
  | error e => simp [bind, Except.bind]
  | ok a => simp [bind, Except.bind]

/-- A configuration is accepted if it meets every rule. -/
theorem validate_eq_ok_iff : c.validate = .ok () ↔ c.Accepted := by
  unfold validate
  simp only [bind_eq_ok_iff, require_eq_ok_iff, exists_const, Bool.and_eq_true, bne_iff_ne,
    Bool.not_eq_true', decide_eq_true_iff, decide_eq_false_iff_not, String.isEmpty_eq_false_iff]
  constructor
  · rintro ⟨hnamed, hbound, hself, hpeers, hdetection, hquota, hgrowth, ⟨hitems, hbytes⟩, hforward,
      hprune⟩
    exact ⟨hnamed, hbound, hself, hpeers, hdetection, hquota, hgrowth, hitems, hbytes, hforward,
      hprune⟩
  · intro h
    exact ⟨h.named, h.bound, h.self, h.peers, h.detection, h.quota, h.growth,
      ⟨h.pageItems, h.pageBytes⟩, h.forward, h.prune⟩

/-! ## The first view -/

/-- An accepted configuration has a first view, of the nodes that it names. -/
lemma Accepted.bootstrap (h : c.Accepted) : ∃ self peers, c.nodeId = .ok self ∧
    c.peerIds = .ok peers ∧
      c.bootstrap = .ok ⟨.ofList 1 (peers ++ [self]), UInt64.ofNat c.quorum, 0, .full⟩ := by
  obtain ⟨self, hself⟩ := h.self
  obtain ⟨peers, hpeers⟩ := h.peers
  refine ⟨self, peers, hself, hpeers, ?_⟩
  unfold Config.bootstrap
  rw [hself, hpeers]
  rfl

/-- A majority of a list is one of the list without its repetitions if nothing is repeated, or one
entry is and an even number of them remains. -/
lemma majority_dedup_iff {α : Type} [DecidableEq α] (l : List α) :
    l.length / 2 + 1 = l.dedup.length / 2 + 1 ↔
      l.Nodup ∨ l.length = l.dedup.length + 1 ∧ Even l.dedup.length := by
  have hle : l.dedup.length ≤ l.length := (List.dedup_sublist l).length_le
  have hnodup : l.Nodup ↔ l.length = l.dedup.length := by
    rw [← List.dedup_eq_self]
    exact ⟨fun h => congrArg List.length h.symm,
      fun h => (List.dedup_sublist l).eq_of_length h.symm⟩
  rw [hnodup, Nat.even_iff]
  omega

end

/-- The first view of an accepted configuration that leaves the quorum to the majority has this node
and its peers as its members, and the quorum is never less than a majority of them. It is just that
exactly if no node is named twice, or one is named once more than the others and the number of
members is even. -/
theorem first_quorum_iff (c : Config) (haccepted : c.validate = .ok ())
    (hmajority : c.cluster.minQuorum = 0) (hlength : c.cluster.peers.length < 2 ^ 64) :
    ∃ self peers r, c.nodeId = .ok self ∧ c.peerIds = .ok peers ∧ c.bootstrap = .ok r ∧
      (∀ n, n ∈ r.view.members ↔ n = self ∨ n ∈ peers) ∧
      r.view.size / 2 + 1 ≤ r.quorum.toNat ∧
      (r.quorum.toNat = r.view.size / 2 + 1 ↔
        (self :: peers).Nodup ∨ (self :: peers).length = r.view.size + 1 ∧ Even r.view.size) := by
  obtain ⟨self, peers, hself, hpeers, hbootstrap⟩ := (validate_eq_ok_iff.1 haccepted).bootstrap
  refine ⟨self, peers, _, hself, hpeers, hbootstrap, fun n => ?_, ?_⟩
  · show n ∈ SortedSet.ofList (peers ++ [self]) ↔ _
    rw [SortedSet.mem_ofList, List.mem_append, List.mem_singleton, or_comm]
  · have hsize : (View.ofList 1 (peers ++ [self])).size = (peers ++ [self]).dedup.length :=
      SortedSet.size_ofList _
    have hcount : c.quorum = (peers ++ [self]).length / 2 + 1 := by
      unfold quorum
      rw [hmajority, if_neg (Nat.lt_irrefl 0), ← length_of_mapM hpeers, List.length_append]
      rfl
    have hfits : (UInt64.ofNat c.quorum).toNat = (peers ++ [self]).length / 2 + 1 := by
      -- the quorum is a number of 64 bits
      have hbound : (peers ++ [self]).length / 2 + 1 < 2 ^ 64 := by
        rw [List.length_append, length_of_mapM hpeers, List.length_singleton]
        omega
      rw [hcount]
      exact Nat.mod_eq_of_lt hbound
    have hperm : (peers ++ [self]).Perm (self :: peers) := List.perm_append_singleton self peers
    simp only [hfits, hsize, ← hperm.nodup_iff, ← hperm.length_eq]
    refine ⟨?_, majority_dedup_iff _⟩
    exact Nat.succ_le_succ (Nat.div_le_div_right (List.dedup_sublist _).length_le)

/-! ## Repeated names -/

/-- A node with its peers, and every setting at its default. -/
def withPeers (id : String) (peers : List String) : Config where
  node := { id, bindAddress := "0.0.0.0:1" }
  cluster := { peers }

/-- With the default settings, it is enough that the names can be read. -/
lemma validate_withPeers {id : String} {peers : List String} {self : NodeId} {ns : List NodeId}
    (hid : id ≠ "") (hself : NodeId.read id = .ok self) (hpeers : peers.mapM NodeId.read = .ok ns) :
    (withPeers id peers).validate = .ok () :=
  validate_eq_ok_iff.2 {
    named := hid
    bound := show "0.0.0.0:1" ≠ "" by decide
    self := ⟨self, hself⟩
    peers := ⟨ns, hpeers⟩
    detection := show 2 ≤ ({} : DetectorConfig).timeoutMs by decide
    quota := show ({} : TransferConfig).quotaBytes ≠ 0 by decide
    growth := show ¬ ({} : TransferConfig).backoffMultiplier < 1.0 by decide +kernel
    pageItems := show ({} : ReplicationConfig).pageItems ≠ 0 by decide
    pageBytes := show ({} : ReplicationConfig).pageBytes ≠ 0 by decide
    forward := show ({} : RouterConfig).forwardTimeoutMs ≠ 0 by decide
    prune := show ({} : ReplicationConfig).pruneInterval ≠ 0 by decide }

lemma read_first : NodeId.read "a:1" = .ok ⟨"a", 1, none⟩ := by
  cbv

lemma read_second : NodeId.read "b:1" = .ok ⟨"b", 1, none⟩ := by
  cbv

/-- A peer that is listed twice does no harm to a view of two. -/
theorem first_quorum_repeated_peer : ∃ r, (withPeers "a:1" ["b:1", "b:1"]).bootstrap = .ok r ∧
    r.view.size = 2 ∧ r.quorum.toNat = r.view.size / 2 + 1 := by
  have hpeers : ["b:1", "b:1"].mapM NodeId.read = .ok [⟨"b", 1, none⟩, ⟨"b", 1, none⟩] := by
    rw [List.mapM_cons, List.mapM_cons, read_second]
    rfl
  obtain ⟨self, peers, r, hself, hread, hr, -, -, hiff⟩ := first_quorum_iff _
    (validate_withPeers (by decide) read_first hpeers) rfl (by decide)
  cases read_first.symm.trans hself
  cases hpeers.symm.trans hread
  have hsize : r.view.size = 2 := by
    unfold bootstrap at hr
    rw [hread, hself] at hr
    cases hr
    decide
  refine ⟨r, hr, hsize, hiff.2 (.inr ?_)⟩
  rw [hsize]
  decide

/-- A node that lists itself as its only peer is accepted, and needs a quorum of two in a view of
one. -/
theorem first_quorum_unreachable :
    (withPeers "a:1" ["a:1"]).validate = .ok () ∧ (withPeers "a:1" ["a:1"]).cluster.minQuorum = 0 ∧
      ∃ r, (withPeers "a:1" ["a:1"]).bootstrap = .ok r ∧ r.view.size = 1 ∧ r.quorum = 2 ∧
        r.quorum.toNat ≠ r.view.size / 2 + 1 := by
  have hpeers : ["a:1"].mapM NodeId.read = .ok [⟨"a", 1, none⟩] := by
    rw [List.mapM_cons, read_first]
    rfl
  refine ⟨validate_withPeers (by decide) read_first hpeers, rfl,
    ⟨.ofList 1 [⟨"a", 1, none⟩, ⟨"a", 1, none⟩], 2, 0, .full⟩, ?_, by decide, rfl, by decide⟩
  unfold bootstrap peerIds nodeId withPeers
  rw [hpeers, read_first]
  rfl

end Config

end ReplicaRing
