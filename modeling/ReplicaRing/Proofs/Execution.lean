import ReplicaRing.Proofs.EngineRuns

/-!
What executing operations does to a store that refuses nothing. An operation runs if the engine
remembers no run of it and is responsible for what it touches; then it writes what its kind says
and is remembered. Whatever else befalls an engine, its store changes by the operations that run
and by the pages that are written, `Engine.effect_of_step`.
-/

namespace ReplicaRing

/-- The item that an operation writes. -/
def OperationKind.writes : OperationKind → List StoreItem
  | .put k v => [⟨k, some v⟩]
  | .delete k => [⟨k, none⟩]
  | .get _ | .rangeQuery _ _ | .other _ _ => []

/-- The items that operations write, in order. -/
def Operation.allWrites (ops : List Operation) : List StoreItem := ops.flatMap (·.kind.writes)

namespace Store

/-- The entry that the last of some items to have a key leaves for it. -/
def lastFor (k : Key) (items : List StoreItem) : Option (Option Bytes) :=
  (items.filter fun i => i.key == k).getLast?.map StoreItem.value

lemma lastFor_append (k : Key) (items more : List StoreItem) :
    lastFor k (items ++ more) = (lastFor k more).or (lastFor k items) := by
  unfold lastFor
  rw [List.filter_append, List.getLast?_append]
  cases (more.filter fun i => i.key == k).getLast? with
  | none => rfl
  | some i => rfl

lemma lastFor_of_ne {items : List StoreItem} {k : Key} (h : ∀ i ∈ items, i.key ≠ k) :
    lastFor k items = none := by
  have hnone : items.filter (fun i => i.key == k) = [] := by
    rw [List.filter_eq_nil_iff]
    intro i hi
    simp [h i hi]
  unfold lastFor
  rw [hnone]
  rfl

/-- Of items in key order each is the last to have its key. -/
lemma lastFor_of_mem {items : List StoreItem} (h : Ascending items) {i : StoreItem}
    (hi : i ∈ items) : lastFor i.key items = some i.value := by
  obtain ⟨front, back, rfl⟩ := List.append_of_mem hi
  -- the keys behind are higher
  have hback : lastFor i.key back = none := lastFor_of_ne fun j hj heq => by
    have hlt := (List.pairwise_cons.1 h.append.2.1).1 j hj
    rw [heq, Std.compare_self] at hlt
    cases hlt
  have hsplit : front ++ i :: back = front ++ [i] ++ back := by simp
  rw [hsplit, lastFor_append, hback, lastFor_append]
  simp [lastFor]

/-- After some items were written, a key has the entry of the last of them, or the one before. -/
theorem writeAll_get? (s : Store) (items : List StoreItem) (k : Key) :
    (s.writeAll items).entries.get? k = (lastFor k items).or (s.entries.get? k) := by
  induction items generalizing s with
  | nil => rfl
  | cons i items ih =>
    have hone : lastFor k [i] = if k = i.key then some i.value else none := by
      unfold lastFor
      by_cases hkey : k = i.key
      · simp [hkey]
      · simp [hkey, Ne.symm hkey]
    have hall := lastFor_append k [i] items
    rw [List.singleton_append, hone] at hall
    have htail : (s.writeAll (i :: items)).entries.get? k =
        (lastFor k items).or ((s.write i.key i.value).entries.get? k) := ih (s.write i.key i.value)
    rw [htail, hall]
    unfold write
    rw [SortedMap.get?_insert]
    cases lastFor k items with
    | some v => rfl
    | none =>
      by_cases hkey : k = i.key
      · rw [if_pos hkey, if_pos hkey]
        rfl
      · rw [if_neg hkey, if_neg hkey]
        rfl

end Store

namespace Engine

variable {e : Engine}

/-- Whether an engine runs an operation when it executes it. -/
def runs (e : Engine) (op : Operation) : Bool :=
  !e.executed.contains op.id && e.installed.any (·.responsibility.admits op.target)

/-- The engine after it ran an operation. -/
def afterRun (e : Engine) (op : Operation) : Engine :=
  { e with
    store := e.store.writeAll op.kind.writes
    executed := e.executed.insert op.id }

/-- What performing an operation writes. -/
lemma perform_ok {kind : OperationKind} {store : Store} {response : Response} {delta : SizeDelta}
    (h : e.perform kind = .ok (store, response, delta)) :
    store = e.store.writeAll kind.writes := by
  cases performed h with
  | _ => rfl

/-- A read may fail, a write does not. -/
lemma perform_error (hs : e.store.refused = []) {kind : OperationKind} {fault : Fault}
    (h : e.perform kind = .error fault) : kind.writes = [] := by
  have hguard : ∀ call, ¬ e.store.refused.contains call = true := fun call => by simp [hs]
  cases kind with
  | put k v =>
    simp only [perform, Store.put, Store.guard, if_neg (hguard _)] at h
    cases h
  | delete k =>
    simp only [perform, Store.delete, Store.guard, if_neg (hguard _)] at h
    cases h
  | _ => rfl

theorem execute_eq (hs : e.store.refused = []) (op : Operation) :
    (e.execute op).1 = if e.runs op then e.afterRun op else e := by
  have h := e.handled op
  generalize e.execute op = result at h ⊢
  unfold runs
  cases h with
  | duplicate hknown => simp [hknown]
  | noView hnew hnone => simp [hnone]
  | outside hnew hr hout => simp [hr, hout]
  | performed hnew hr hin hdone => simp [hnew, hr, hin, afterRun, perform_ok hdone]
  | failed hnew hr hin hfault =>
    -- a read may fail, but it is remembered as well
    simp [hnew, hr, hin, afterRun, Store.writeAll, perform_error hs hfault]

/-! ## Many operations -/

/-- Those of some operations that run when they are executed one after the other. -/
def ranOf (e : Engine) : List Operation → List Operation
  | [] => []
  | op :: rest => if e.runs op then op :: (e.afterRun op).ranOf rest else e.ranOf rest

/-- The engine after it ran some operations. -/
def afterAll (e : Engine) (ops : List Operation) : Engine := ops.foldl afterRun e

lemma executeAll_eq (hs : e.store.refused = []) (ops : List Operation) :
    (e.executeAll ops).1 = e.afterAll (e.ranOf ops) := by
  induction ops generalizing e with
  | nil => rfl
  | cons op rest ih =>
    have hhead := execute_eq hs op
    show ((e.execute op).1.executeAll rest).1 = _
    unfold ranOf
    by_cases hruns : e.runs op = true
    · rw [if_pos hruns] at hhead ⊢
      have hrefused : (e.afterRun op).store.refused = [] :=
        (Store.writeAll_refused _ _).trans hs
      rw [hhead, ih hrefused]
      rfl
    · rw [if_neg hruns] at hhead ⊢
      rw [hhead, ih hs]

/-- Running operations writes what they write, and puts them in mind. -/
lemma afterAll_eq (e : Engine) (ops : List Operation) :
    e.afterAll ops =
      { e with
        store := e.store.writeAll (Operation.allWrites ops)
        executed := (ops.map Operation.id).foldl RecentSet.insert e.executed } := by
  induction ops generalizing e with
  | nil => rfl
  | cons op rest ih =>
    show (e.afterRun op).afterAll rest = _
    rw [ih]
    have hwrites : (e.afterRun op).store.writeAll (Operation.allWrites rest) =
        e.store.writeAll (Operation.allWrites (op :: rest)) :=
      (Store.writeAll_append e.store op.kind.writes _).symm
    rw [hwrites]
    rfl

/-! ## Steps -/

/-- The items of a page that is written. -/
def Step.pageItems : Step → List StoreItem
  | .page items => items
  | .hold _ _ | .value _ | .bootstrap _ | .oracle _ | .mover _ => []

/-- The operations that a step runs. -/
def ranBy (e : Engine) : Step → List Operation
  | .value (.operation op) => if e.awaiting.isSome then [] else e.ranOf [op]
  | .mover event => if e.completedBy event then e.ranOf e.deferred else []
  | .hold _ _ | .value .noop | .value (.reconfigure _) | .bootstrap _ | .oracle _ | .page _ => []

/-- The operations that steps run. -/
def ran (e : Engine) : List Step → List Operation
  | [] => []
  | s :: rest => e.ranBy s ++ (e.step s).ran rest

lemma ran_append (e : Engine) (steps more : List Step) :
    e.ran (steps ++ more) = e.ran steps ++ (e.follow steps).ran more := by
  induction steps generalizing e with
  | nil => rfl
  | cons s steps ih =>
    show e.ranBy s ++ (e.step s).ran (steps ++ more) = e.ranBy s ++ (e.step s).ran steps ++ _
    rw [ih, List.append_assoc]
    rfl

lemma ranBy_mover (e : Engine) (event : MoverEvent) :
    e.ranBy (.mover event) = if e.completedBy event then e.ranOf e.deferred else [] := rfl

lemma ranBy_operation (e : Engine) (op : Operation) :
    e.ranBy (.value (.operation op)) = if e.awaiting.isSome then [] else e.ranOf [op] := rfl

/-- What runs does not depend on what is awaited and held back. -/
lemma ranOf_congr (e e' : Engine) (hexecuted : e.executed = e'.executed)
    (hinstalled : e.installed = e'.installed) (ops : List Operation) :
    e.ranOf ops = e'.ranOf ops := by
  induction ops generalizing e e' with
  | nil => rfl
  | cons op rest ih =>
    have hruns : e.runs op = e'.runs op := by
      unfold runs
      rw [hexecuted, hinstalled]
    unfold ranOf
    rw [hruns, ih e e' hexecuted hinstalled]
    have hafter : (e.afterRun op).ranOf rest = (e'.afterRun op).ranOf rest :=
      ih _ _ (by unfold afterRun; rw [hexecuted]) hinstalled
    rw [hafter]

/-- A step changes the store by pages and by operations that run, and these are put in mind. -/
theorem effect_of_step (h : e.Consistent) (hs : e.store.refused = []) (s : Step) :
    (e.step s).store = e.store.writeAll (s.pageItems ++ Operation.allWrites (e.ranBy s)) ∧
      (e.step s).executed = ((e.ranBy s).map Operation.id).foldl RecentSet.insert e.executed := by
  cases s with
  | hold position value => exact ⟨rfl, rfl⟩
  | bootstrap r =>
    obtain ⟨_, _, _, _, hmove⟩ := e.reconfigure_rest r
    show (e.reconfigure r).1.store = _ ∧ (e.reconfigure r).1.executed = _
    rw [hmove]
    exact ⟨rfl, rfl⟩
  | oracle event =>
    cases event with
    | trust leader view => exact ⟨rfl, rfl⟩
    | livenessChanged leader => exact ⟨rfl, rfl⟩
  | page items =>
    show e.store.writeAll items = e.store.writeAll (items ++ []) ∧ _
    rw [List.append_nil]
    exact ⟨rfl, rfl⟩
  | mover event =>
    show (e.handleMover event).1.store = e.store.writeAll (Operation.allWrites (e.ranBy _)) ∧
      (e.handleMover event).1.executed = _
    rw [handleMover_eq h, ranBy_mover]
    by_cases hdone : e.completedBy event = true
    · -- what was held back runs on an engine that awaits nothing any more
      rw [if_pos hdone, if_pos hdone]
      have hall := executeAll_eq (e := { e with awaiting := none, deferred := [] }) hs e.deferred
      rw [afterAll_eq, ranOf_congr { e with awaiting := none, deferred := [] } e rfl rfl] at hall
      exact ⟨congrArg Engine.store hall, congrArg Engine.executed hall⟩
    · rw [if_neg hdone, if_neg hdone]
      exact ⟨rfl, rfl⟩
  | value value =>
    obtain ⟨_, _, hcount⟩ :=
      countApplied_rest (Engine.apply { e with held := e.held.erase e.next } value).1
    show (countApplied _).1.store = _ ∧ (countApplied _).1.executed = _
    rw [hcount]
    cases value with
    | noop => exact ⟨rfl, rfl⟩
    | reconfigure r =>
      obtain ⟨_, _, _, _, hmove⟩ :=
        reconfigure_rest { e with held := e.held.erase e.next } r
      show (reconfigure _ r).1.store = _ ∧ (reconfigure _ r).1.executed = _
      rw [hmove]
      exact ⟨rfl, rfl⟩
    | operation op =>
      show _ = e.store.writeAll (Operation.allWrites (e.ranBy _)) ∧ _
      unfold apply
      simp only [ranBy_operation]
      by_cases hwait : e.awaiting.isSome = true
      · rw [if_pos hwait, if_pos hwait]
        exact ⟨rfl, rfl⟩
      · rw [if_neg hwait, if_neg hwait]
        have hone := executeAll_eq (e := { e with held := e.held.erase e.next }) hs [op]
        rw [afterAll_eq, ranOf_congr { e with held := e.held.erase e.next } e rfl rfl] at hone
        exact ⟨congrArg Engine.store hone, congrArg Engine.executed hone⟩

lemma refused_step (h : e.Consistent) (hs : e.store.refused = []) (s : Step) :
    (e.step s).store.refused = [] := by
  rw [(effect_of_step h hs s).1, Store.writeAll_refused, hs]

lemma refused_follow (h : e.Consistent) (hs : e.store.refused = []) (steps : List Step) :
    (e.follow steps).store.refused = [] := by
  induction steps generalizing e with
  | nil => exact hs
  | cons s steps ih => exact ih (h.step s) (refused_step h hs s)

lemma refused_run (h : e.Consistent) (hs : e.store.refused = []) (inputs : List Input) :
    (e.run inputs).store.refused = [] := by
  rw [run_eq]
  exact refused_follow h hs _

/-- Steps that write no pages change the store by the operations that run. -/
theorem store_of_follow (h : e.Consistent) (hs : e.store.refused = []) {steps : List Step}
    (hquiet : steps.flatMap Step.pageItems = []) :
    (e.follow steps).store = e.store.writeAll (Operation.allWrites (e.ran steps)) := by
  induction steps generalizing e with
  | nil => rfl
  | cons s steps ih =>
    obtain ⟨hfirst, hrest⟩ := List.append_eq_nil_iff.1 (List.flatMap_cons ▸ hquiet)
    have hstep := (effect_of_step h hs s).1
    rw [hfirst, List.nil_append] at hstep
    have hran : Operation.allWrites (e.ran (s :: steps)) =
        Operation.allWrites (e.ranBy s) ++ Operation.allWrites ((e.step s).ran steps) :=
      List.flatMap_append
    rw [hran, Store.writeAll_append, ← hstep]
    exact ih (h.step s) (refused_step h hs s) hrest

end Engine

end ReplicaRing
