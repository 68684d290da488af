import ReplicaRing.Proofs.SteadyReplicas

/-!
A replica that joins a view beside one that is ready. Both apply one log from the change of view
on; the joiner takes pages of the source meanwhile, each read at some later place of the log, holds
back what is decided, and runs it once its transfer has completed. They answer alike for a key
exactly if the last operations that either ran on it, or what stood there without one, leave the
same value, `Join.agreement_iff`. What they ran differs by what they remember: the source has a
memory of operations from before the change of view, which a retry is held against, and the joiner
does not.
-/

namespace ReplicaRing

/-- The values that a step takes from the log. -/
def Engine.Step.values : Step → List LogValue
  | value v => [v]
  | hold _ _ | bootstrap _ | oracle _ | mover _ | page _ => []

/-- A source and a joiner: what reached either before the change of view, the change, and what
happened to either since. -/
structure Join where
  config : ReplicationConfig
  source : NodeId
  joiner : NodeId
  /-- What the source started on. -/
  entries : SortedMap Key (Option Bytes)
  sourceBefore : List Engine.Input
  joinerBefore : List Engine.Input
  change : Reconfigure
  sourceSteps : List Engine.Step
  /-- What happened to the joiner until its transfer completed. -/
  waiting : List Engine.Step
  completed : MoverEvent
  later : List Engine.Step

namespace Join

/-! ## The two replicas -/

def sourceBeforeView (j : Join) : Engine :=
  (Engine.start j.source j.config ⟨j.entries, []⟩).run j.sourceBefore

def joinerBeforeView (j : Join) : Engine :=
  (Engine.start j.joiner j.config ⟨∅, []⟩).run j.joinerBefore

def sourceAtView (j : Join) : Engine := j.sourceBeforeView.step (.value (.reconfigure j.change))

def joinerAtView (j : Join) : Engine := j.joinerBeforeView.step (.value (.reconfigure j.change))

def sourceEnd (j : Join) : Engine := j.sourceAtView.follow j.sourceSteps

def joinerSteps (j : Join) : List Engine.Step := j.waiting ++ .mover j.completed :: j.later

def joinerEnd (j : Join) : Engine := j.joinerAtView.follow j.joinerSteps

/-- The items that the joiner took of its transfer. -/
def taken (j : Join) : List StoreItem := j.waiting.flatMap Engine.Step.pageItems

/-- The operations that were decided since the change of view. -/
def decided (j : Join) : List Operation := j.sourceSteps.flatMap Engine.Step.operations

/-- A transfer that brought the joiner every entry of its range, each as the source held it at some
place of the log, while both applied the same values. -/
structure Proper (j : Join) : Prop where
  ready : j.sourceBeforeView.state = .ready
  outside : j.joinerBeforeView.isMember = false
  empty : j.joinerBeforeView.store.entries = ∅
  sourceNewer : ∀ r ∈ j.sourceBeforeView.installed, r.view.id < j.change.view.id
  joinerNewer : ∀ r ∈ j.joinerBeforeView.installed, r.view.id < j.change.view.id
  joins : j.change.view.contains j.joiner = true
  version : j.change.versionId ≠ 0
  log : j.sourceSteps.flatMap Engine.Step.values =
    (j.waiting ++ j.later).flatMap Engine.Step.values
  sourceQuiet : j.sourceSteps.flatMap Engine.Step.pageItems = []
  laterQuiet : j.later.flatMap Engine.Step.pageItems = []
  /-- The transfer that completes is the one that the change of view calls for. -/
  awaited : (j.joinerAtView.follow j.waiting).awaiting = some j.change.view.id
  accepted : (j.joinerAtView.follow j.waiting).completedBy j.completed = true
  received : ∀ k, j.change.responsibility.contains k = true →
    ∃ front rest, j.sourceSteps = front ++ rest ∧
      Store.lastFor k j.taken = (j.sourceAtView.follow front).store.entries.get? k

/-- The change of view keeps the source, and the configurations after it keep both replicas and
their range. -/
structure Steady (j : Join) : Prop where
  stays : j.change.view.contains j.source = true
  source : ∀ s ∈ j.sourceSteps, s.Keeps j.change.view.id j.change.responsibility j.source
  joiner : ∀ s ∈ j.waiting ++ j.later,
    s.Keeps j.change.view.id j.change.responsibility j.joiner

/-- No operation is decided that either replica remembers from before the change of view. -/
def Fresh (j : Join) : Prop :=
  ∀ op ∈ j.decided, j.sourceAtView.executed.contains op.id = false ∧
    j.joinerAtView.executed.contains op.id = false

/-- What the last operation that the source ran on a key since the change of view left there, or
what the source held there. -/
def sourceLast (j : Join) (k : Key) : Option (Option Bytes) :=
  (Store.lastFor k (Operation.allWrites (j.sourceAtView.ran j.sourceSteps))).or
    (j.sourceAtView.store.entries.get? k)

/-- What the last operation that the joiner ran on a key since the change of view left there, or
what its transfer brought. -/
def joinerLast (j : Join) (k : Key) : Option (Option Bytes) :=
  (Store.lastFor k (Operation.allWrites (j.joinerAtView.ran j.joinerSteps))).or
    (Store.lastFor k j.taken)

variable {j : Join}

/-! ## At the change of view -/

/-- What every engine is that runs from a start on a store. -/
lemma run_start (self : NodeId) (config : ReplicationConfig)
    (entries : SortedMap Key (Option Bytes)) (inputs : List Engine.Input) {e : Engine}
    (he : (Engine.start self config ⟨entries, []⟩).run inputs = e) :
    e.Consistent ∧ e.store.refused = [] ∧ e.self = self ∧ e.Remembers config.dedupWindow := by
  subst he
  have hstart := Engine.consistent_start self config ⟨entries, []⟩
  refine ⟨hstart.run inputs, Engine.refused_run hstart rfl inputs, ?_, ?_⟩
  · rw [Engine.run_eq]
    exact Engine.self_follow hstart _
  · rw [Engine.run_eq]
    exact Engine.Remembers.follow ⟨RecentSet.valid_empty _, rfl⟩ hstart rfl _

/-- A newer view that an engine is a member of is installed, whether it was a member before or not;
nothing is written or run with it. -/
lemma change_installed {e : Engine} (h : e.Consistent) (hs : e.store.refused = []) {r : Reconfigure}
    (hnew : ∀ r' ∈ e.installed, r'.view.id < r.view.id) (hmember : r.view.contains e.self = true) :
    (e.step (.value (.reconfigure r))).installed = some r ∧
      (e.step (.value (.reconfigure r))).deferred = e.deferred ∧
      (e.isMember = true → (e.step (.value (.reconfigure r))).awaiting = e.awaiting) ∧
      (e.step (.value (.reconfigure r))).store = e.store ∧
      (e.step (.value (.reconfigure r))).executed = e.executed := by
  have hstands := Engine.standsAs_change h (s := .value (.reconfigure r)) rfl
  obtain ⟨hstore, hexecuted⟩ := Engine.effect_of_step h hs (.value (.reconfigure r))
  have hstale : ¬ e.isStale r = true := by
    unfold Engine.isStale
    cases hi : e.installed with
    | none => simp
    | some r' => simpa using hnew r' (by rw [hi]; rfl)
  have hreconfigure := Engine.reconfigure_eq h r
  rw [if_neg hstale, if_neg (by rw [hmember]; simp)] at hreconfigure
  refine ⟨?_, ?_, ?_, hstore, hexecuted⟩
  · rw [hstands.installed, hreconfigure]
    split
    · rfl
    · rfl
  · rw [hstands.deferred, hreconfigure]
    split
    · rfl
    · rfl
  · intro hwas
    rw [hstands.awaiting, hreconfigure, if_pos hwas]

/-- The joiner enters the view on its empty store, with nothing held back. -/
lemma Proper.joiner (h : j.Proper) :
    j.joinerAtView.Consistent ∧ j.joinerAtView.store.refused = [] ∧
      j.joinerAtView.store.entries = ∅ ∧ j.joinerAtView.self = j.joiner ∧
      j.joinerAtView.installed = some j.change ∧ j.joinerAtView.deferred = [] := by
  obtain ⟨hconsistent, hstore, hself, -⟩ :=
    run_start j.joiner j.config ∅ j.joinerBefore (e := j.joinerBeforeView) rfl
  obtain ⟨hinstalled, hdeferred, -, hsame, -⟩ :=
    change_installed hconsistent hstore h.joinerNewer (by rw [hself]; exact h.joins)
  have hidle := hconsistent.awaiting_of_ne_syncing
    (by rw [hconsistent.passive.2 h.outside]; simp)
  refine ⟨hconsistent.step _, Engine.refused_step hconsistent hstore _, ?_, ?_, hinstalled, ?_⟩
  · show (Engine.step _ _).store.entries = ∅
    rw [hsame]
    exact h.empty
  · exact (Engine.self_step hconsistent _).trans hself
  · show (Engine.step _ _).deferred = []
    rw [hdeferred, hconsistent.deferred hidle]

/-- The source goes through the change of view without awaiting anything. -/
lemma Proper.source (h : j.Proper) :
    j.sourceAtView.Consistent ∧ j.sourceAtView.store.refused = [] ∧
      j.sourceAtView.self = j.source ∧
      (j.change.view.contains j.source = true →
        j.sourceAtView.installed = some j.change ∧ j.sourceAtView.awaiting = none) := by
  obtain ⟨hconsistent, hstore, hself, -⟩ :=
    run_start j.source j.config j.entries j.sourceBefore (e := j.sourceBeforeView) rfl
  refine ⟨hconsistent.step _, Engine.refused_step hconsistent hstore _,
    (Engine.self_step hconsistent _).trans hself, fun hstays => ?_⟩
  obtain ⟨hinstalled, -, hawaiting, -, -⟩ :=
    change_installed hconsistent hstore h.sourceNewer (by rw [hself]; exact hstays)
  -- who is ready is a member, and a member that stays goes on as it was
  have hmember : j.sourceBeforeView.isMember = true := by
    by_contra hnot
    rw [Bool.not_eq_true] at hnot
    have hpassive := hconsistent.passive.2 hnot
    rw [h.ready] at hpassive
    cases hpassive
  have hidle := hconsistent.awaiting_of_ne_syncing (by rw [h.ready]; simp)
  exact ⟨hinstalled, (hawaiting hmember).trans hidle⟩

/-! ## What the replicas hold -/

lemma get_eq {s : Store} (hs : s.refused = []) (k : Key) :
    s.get k = .ok (s.entries.get? k).join := by
  unfold Store.get Store.guard Store.value?
  rw [hs]
  rfl

/-- What the joiner holds is what it ran since it joined, on top of what its transfer brought. -/
lemma Proper.joiner_entry (h : j.Proper) (k : Key) :
    j.joinerEnd.store.refused = [] ∧ j.joinerEnd.store.entries.get? k = j.joinerLast k := by
  obtain ⟨hconsistent, hstore, hempty, -, hinstalled, -⟩ := h.joiner
  have hreached : j.joinerAtView.Reached j.change.view.id := ⟨_, hinstalled, UInt64.le_refl _⟩
  obtain ⟨-, hnone, hpages, -, -⟩ :=
    Engine.waiting_follow hconsistent hstore hreached h.awaited
  -- from the completed transfer on, no pages are written
  have hquiet : (Engine.Step.mover j.completed :: j.later).flatMap Engine.Step.pageItems = [] :=
    h.laterQuiet
  have hafter := Engine.store_of_follow (hconsistent.follow j.waiting)
    (Engine.refused_follow hconsistent hstore j.waiting) hquiet
  have hran : j.joinerAtView.ran j.joinerSteps =
      (j.joinerAtView.follow j.waiting).ran (.mover j.completed :: j.later) := by
    unfold joinerSteps
    rw [Engine.ran_append, hnone, List.nil_append]
  refine ⟨Engine.refused_follow hconsistent hstore _, ?_⟩
  unfold joinerEnd joinerSteps
  rw [Engine.follow_append, hafter, hpages, Store.writeAll_get?, Store.writeAll_get?, ← hran,
    hempty, SortedMap.get?_empty, Option.or_none]
  rfl

/-- What the source holds is what it ran since the change of view, on top of what it held then. -/
lemma Proper.source_entry (h : j.Proper) (k : Key) :
    j.sourceEnd.store.refused = [] ∧ j.sourceEnd.store.entries.get? k = j.sourceLast k := by
  obtain ⟨hconsistent, hstore, -, -⟩ := h.source
  refine ⟨Engine.refused_follow hconsistent hstore _, ?_⟩
  unfold sourceEnd
  rw [Engine.store_of_follow hconsistent hstore h.sourceQuiet, Store.writeAll_get?]
  rfl

/-- An entry that the source held at some place of the log. -/
lemma Proper.source_front (h : j.Proper) {front rest : List Engine.Step}
    (hsteps : j.sourceSteps = front ++ rest) (k : Key) :
    (j.sourceAtView.follow front).store.entries.get? k =
      (Store.lastFor k (Operation.allWrites (j.sourceAtView.ran front))).or
        (j.sourceAtView.store.entries.get? k) := by
  obtain ⟨hconsistent, hstore, -, -⟩ := h.source
  have hquiet : front.flatMap Engine.Step.pageItems = [] := by
    have hall := h.sourceQuiet
    rw [hsteps, List.flatMap_append] at hall
    exact (List.append_eq_nil_iff.1 hall).1
  rw [Engine.store_of_follow hconsistent hstore hquiet, Store.writeAll_get?]

/-! ## What the replicas ran -/

/-- The operations among some values. -/
def operationsOf (values : List LogValue) : List Operation :=
  values.flatMap fun v => (Engine.Step.value v).operations

lemma operations_eq (steps : List Engine.Step) :
    steps.flatMap Engine.Step.operations = operationsOf (steps.flatMap Engine.Step.values) := by
  induction steps with
  | nil => rfl
  | cons s steps ih =>
    have hone : s.operations = operationsOf s.values := by
      cases s with
      | value v => exact (List.append_nil _).symm
      | _ => rfl
    rw [List.flatMap_cons, List.flatMap_cons, ih, hone]
    exact List.flatMap_append.symm

/-- What either ran is what its memory let pass, whenever the transfer was read and completed. -/
lemma Proper.ran (h : j.Proper) (hsteady : j.Steady) :
    j.joinerAtView.ran j.joinerSteps =
        Engine.passed j.change.responsibility j.joinerAtView.executed j.decided ∧
      j.sourceAtView.ran j.sourceSteps =
        Engine.passed j.change.responsibility j.sourceAtView.executed j.decided := by
  constructor
  · obtain ⟨hconsistent, hstore, -, hself, hinstalled, hfresh⟩ := h.joiner
    have hserves : j.joinerAtView.Serves j.change.view.id j.change.responsibility :=
      ⟨hconsistent, hstore, j.change, hinstalled, UInt64.le_refl _, rfl,
        by rw [hself]; exact h.joins⟩
    have hkeeps : ∀ s ∈ j.waiting ++ j.later,
        s.Keeps j.change.view.id j.change.responsibility j.joinerAtView.self := by
      rw [hself]
      exact hsteady.joiner
    have hdecided : (j.waiting ++ j.later).flatMap Engine.Step.operations = j.decided := by
      unfold decided
      rw [operations_eq, ← h.log, ← operations_eq]
    unfold joinerSteps
    rw [hserves.ran_joined hfresh h.awaited h.accepted hkeeps, hdecided]
  · obtain ⟨hconsistent, hstore, hself, hview⟩ := h.source
    obtain ⟨hinstalled, hidle⟩ := hview hsteady.stays
    have hserves : j.sourceAtView.Serves j.change.view.id j.change.responsibility :=
      ⟨hconsistent, hstore, j.change, hinstalled, UInt64.le_refl _, rfl,
        by rw [hself]; exact hsteady.stays⟩
    have hkeeps : ∀ s ∈ j.sourceSteps,
        s.Keeps j.change.view.id j.change.responsibility j.sourceAtView.self := by
      rw [hself]
      exact hsteady.source
    exact hserves.ran_ready hidle hkeeps

/-- Memories that hold no number that is still to be decided let the same operations pass. -/
lemma Fresh.passed_eq (hfresh : j.Fresh) :
    Engine.passed j.change.responsibility j.joinerAtView.executed j.decided =
      Engine.passed j.change.responsibility j.sourceAtView.executed j.decided := by
  obtain ⟨hconsistent, hstore, -, hmemory⟩ :=
    run_start j.joiner j.config ∅ j.joinerBefore (e := j.joinerBeforeView) rfl
  obtain ⟨hconsistent', hstore', -, hmemory'⟩ :=
    run_start j.source j.config j.entries j.sourceBefore (e := j.sourceBeforeView) rfl
  have hjoiner : j.joinerAtView.Remembers j.config.dedupWindow :=
    hmemory.follow hconsistent hstore [.value (.reconfigure j.change)]
  have hsource : j.sourceAtView.Remembers j.config.dedupWindow :=
    hmemory'.follow hconsistent' hstore' [.value (.reconfigure j.change)]
  obtain ⟨hvalid, hcapacity⟩ := hjoiner
  obtain ⟨hvalid', hcapacity'⟩ := hsource
  -- the memories may differ, but not in a number that is still to come
  have halike : RecentSet.Alike (fun id => ∃ op ∈ j.decided, op.id = id)
      j.joinerAtView.executed j.sourceAtView.executed := by
    refine RecentSet.alike_of_not_mem (hcapacity.trans hcapacity'.symm) ?_ ?_
    · rintro id hid ⟨op, hop, rfl⟩
      have hnot := (hfresh op hop).2
      rw [(hvalid.contains_iff op.id).2 hid] at hnot
      cases hnot
    · rintro id hid ⟨op, hop, rfl⟩
      have hnot := (hfresh op hop).1
      rw [(hvalid'.contains_iff op.id).2 hid] at hnot
      cases hnot
  exact Engine.passed_congr _ (fun op hop => ⟨op, hop, rfl⟩) hvalid hvalid' halike

/-- Replicas that ran the same operations hold the same entries. -/
lemma Proper.last_eq (h : j.Proper)
    (hran : j.joinerAtView.ran j.joinerSteps = j.sourceAtView.ran j.sourceSteps) {k : Key}
    (hk : j.change.responsibility.contains k = true) : j.joinerLast k = j.sourceLast k := by
  obtain ⟨front, rest, hsteps, htaken⟩ := h.received k hk
  unfold joinerLast sourceLast
  rw [hran, htaken, h.source_front hsteps, hsteps, Engine.ran_append]
  -- what the source ran before its entry was read shows in the entry already
  have hsplit : Operation.allWrites (j.sourceAtView.ran front ++
      (j.sourceAtView.follow front).ran rest) = Operation.allWrites (j.sourceAtView.ran front) ++
        Operation.allWrites ((j.sourceAtView.follow front).ran rest) := List.flatMap_append
  rw [hsplit, Store.lastFor_append]
  cases Store.lastFor k (Operation.allWrites ((j.sourceAtView.follow front).ran rest)) with
  | some v => rfl
  | none =>
    -- nothing ran on the key since its entry was read
    cases Store.lastFor k (Operation.allWrites (j.sourceAtView.ran front)) with
    | some v => rfl
    | none => rfl

/-! ## Agreement -/

/-- A joiner and its source answer alike for a key exactly if what they ran on it last, or what
stood there, leaves the same value. While the views keep both and their range, what they ran is
what their memories let pass of the decided operations. So they agree everywhere if neither
remembers, from before the change of view, an operation that is decided again. -/
theorem agreement_iff (h : j.Proper) :
    (∀ k, j.change.responsibility.contains k = true →
      (j.joinerEnd.store.get k = j.sourceEnd.store.get k ↔
        (j.joinerLast k).join = (j.sourceLast k).join)) ∧
    (j.Steady →
      j.joinerAtView.ran j.joinerSteps =
          Engine.passed j.change.responsibility j.joinerAtView.executed j.decided ∧
        j.sourceAtView.ran j.sourceSteps =
          Engine.passed j.change.responsibility j.sourceAtView.executed j.decided) ∧
    (j.Steady → j.Fresh → ∀ k, j.change.responsibility.contains k = true →
      j.joinerEnd.store.get k = j.sourceEnd.store.get k) := by
  have hget : ∀ k, j.joinerEnd.store.get k = j.sourceEnd.store.get k ↔
      (j.joinerLast k).join = (j.sourceLast k).join := by
    intro k
    obtain ⟨hstore, hentry⟩ := h.joiner_entry k
    obtain ⟨hstore', hentry'⟩ := h.source_entry k
    rw [get_eq hstore, get_eq hstore', hentry, hentry', Except.ok.injEq]
  refine ⟨fun k _ => hget k, h.ran, fun hsteady hfresh k hk => ?_⟩
  -- both ran what their memories let pass, and those let the same pass
  obtain ⟨hjoiner, hsource⟩ := h.ran hsteady
  rw [hfresh.passed_eq, ← hsource] at hjoiner
  rw [hget, h.last_eq hjoiner hk]

/-! ## A retry across the change of view -/

/-- The first of two replicas runs an operation, the second joins and takes its entry, and then some
operations are decided. -/
def handover (ops : List Operation) : Join where
  config := {}
  source := ⟨"a", 1, none⟩
  joiner := ⟨"b", 1, none⟩
  entries := ∅
  sourceBefore :=
    [.bootstrap ⟨.ofList 1 [⟨"a", 1, none⟩], 1, 0, .full⟩,
      .decided 1 (.operation ⟨7, .put [0x61] [0x30]⟩)]
  joinerBefore := [.decided 1 (.operation ⟨7, .put [0x61] [0x30]⟩)]
  change := ⟨.ofList 2 [⟨"a", 1, none⟩, ⟨"b", 1, none⟩], 2, 1, .full⟩
  sourceSteps := ops.map fun op => .value (.operation op)
  waiting := [.page [⟨[0x61], some [0x30]⟩]]
  completed := .transferComplete 1 ⟨"a", 1, none⟩ ⟨.full, 2, false⟩ 1 2
  later := ops.map fun op => .value (.operation op)

lemma proper_handover (ops : List Operation) : (handover ops).Proper where
  ready := by
    show (handover []).sourceBeforeView.state = .ready
    decide +kernel
  outside := by
    show (handover []).joinerBeforeView.isMember = false
    decide +kernel
  empty := by
    show (handover []).joinerBeforeView.store.entries = ∅
    decide +kernel
  sourceNewer := by
    show ∀ r ∈ (handover []).sourceBeforeView.installed, r.view.id < (handover []).change.view.id
    decide +kernel
  joinerNewer := by
    show ∀ r ∈ (handover []).joinerBeforeView.installed, r.view.id < (handover []).change.view.id
    decide +kernel
  joins := by
    show (handover []).change.view.contains (handover []).joiner = true
    decide +kernel
  version := by
    show (handover []).change.versionId ≠ 0
    decide +kernel
  log := rfl
  sourceQuiet := by
    show (ops.map _).flatMap Engine.Step.pageItems = []
    simp [List.flatMap_map, Engine.Step.pageItems]
  laterQuiet := by
    show (ops.map _).flatMap Engine.Step.pageItems = []
    simp [List.flatMap_map, Engine.Step.pageItems]
  awaited := by
    show ((handover []).joinerAtView.follow (handover []).waiting).awaiting =
      some (handover []).change.view.id
    decide +kernel
  accepted := by
    show ((handover []).joinerAtView.follow (handover []).waiting).completedBy
      (handover []).completed = true
    decide +kernel
  received := by
    intro k _
    refine ⟨[], _, rfl, ?_⟩
    have hview : (handover ops).sourceAtView = (handover []).sourceAtView := rfl
    have hone : ∀ m : SortedMap Key (Option Bytes), m.entries = [([0x61], some [0x30])] →
        Store.lastFor k [⟨[0x61], some [0x30]⟩] = m.get? k := by
      intro m hm
      unfold Store.lastFor SortedMap.get?
      rw [hm]
      by_cases hk : k = [0x61]
      · rw [hk]
        decide
      · have hne : compare k [0x61] ≠ .eq := fun heq => hk (Std.LawfulEqCmp.eq_of_compare heq)
        simp [Ne.symm hk, SortedMap.lookup, hne]
    rw [Engine.follow_nil, hview]
    exact hone _ (by decide +kernel)

/-- A put that is decided after the change of view, under a number of its own. -/
def overwrite : Operation := ⟨8, .put [0x61] [0x31]⟩

/-- Both replicas answer with what was put since the change of view. -/
theorem agreement_iff_overwrite :
    (handover [overwrite]).joinerEnd.state = .ready ∧
      (handover [overwrite]).joinerEnd.store.get [0x61] =
        (handover [overwrite]).sourceEnd.store.get [0x61] := by
  have hsteady : (handover [overwrite]).Steady := by
    refine ⟨by decide +kernel, fun s hs => ?_, fun s hs => ?_⟩
    · obtain rfl := List.mem_singleton.1 hs
      exact fun r hr => (nomatch hr)
    · rcases List.mem_cons.1 hs with rfl | hs
      · exact fun r hr => (nomatch hr)
      · obtain rfl := List.mem_singleton.1 hs
        exact fun r hr => (nomatch hr)
  have hfresh : (handover [overwrite]).Fresh := by
    intro op hop
    obtain rfl := List.mem_singleton.1 hop
    decide +kernel
  obtain ⟨-, -, hagree⟩ := agreement_iff (proper_handover [overwrite])
  exact ⟨by decide +kernel, hagree hsteady hfresh [0x61] (by decide +kernel)⟩

/-- If the client tries the first operation again, the source holds it for a duplicate, and the
joiner runs it on top of the put that came between. -/
theorem disagreement_retried :
    let j := handover [overwrite, ⟨7, .put [0x61] [0x30]⟩]
    j.Proper ∧ j.change.responsibility.contains [0x61] = true ∧ j.joinerEnd.state = .ready ∧
      j.joinerEnd.store.get [0x61] = .ok (some [0x30]) ∧
      j.sourceEnd.store.get [0x61] = .ok (some [0x31]) :=
  ⟨proper_handover _, by decide +kernel, by decide +kernel, by decide +kernel, by decide +kernel⟩

end Join

end ReplicaRing
