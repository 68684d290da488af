import ReplicaRing.Cluster.Replica
import ReplicaRing.Proofs.Execution
import ReplicaRing.Proofs.TransferLink

/-!
The store that the engine and the mover of a replica share. Whatever a replica handles, the store
goes on refusing nothing and the mover stays tidy, `Replica.Sound.handle`. An envelope from the
network changes the store by the items that it brings to an open session, `Replica.store_inbound`,
and each key is among them once at most.
-/

namespace ReplicaRing

namespace Replica

/-- The open session that would write a page of a peer. -/
def receiving? (r : Replica) (session : PeerSession) : Option ReceiverSession :=
  if r.listening then
    r.mover.bind fun m => if m.completed.contains session then none else m.inbound.get? session
  else none

/-- The items that an envelope brings to an open session and that are written. -/
def brings (r : Replica) (e : Envelope) : List StoreItem :=
  match e.message with
  | .data id payload _ =>
    match r.receiving? ⟨e.src, id⟩ with
    | none => []
    | some s =>
      match Page.decode payload s.metadata.compressed with
      | .error _ => []
      | .ok items => ReceiverSession.written [] s.lastKey items
  | _ => []

/-- The input that a signal is to the engine. -/
def engineInput? : Signal → Option Engine.Input
  | .decided i => some (.decided i.position.toNat i.value)
  | .oracle event => some (.oracle event)
  | .mover event => some (.mover event)
  | _ => none

/-- A replica on a store that refuses nothing, between signals. -/
structure Sound (r : Replica) : Prop where
  engine : r.engine.Consistent
  store : r.engine.store.refused = []
  mover : ∀ m ∈ r.mover, m.Tidy

variable {r : Replica}

lemma sound_assemble (self : NodeId) (config : Config) (placement : Placement)
    (entries : SortedMap Key (Option Bytes)) (compressor : BlockCompression.Compressor)
    (draws : Nat → Nat) (first : Option Reconfigure) :
    ((assemble self config placement ⟨entries, []⟩ compressor draws).bootstrap first).1.Sound := by
  have hengine := Engine.consistent_start self config.replication ⟨entries, []⟩
  have hmover : ∀ m ∈ (assemble self config placement ⟨entries, []⟩ compressor draws).mover,
      m.Tidy := by
    intro m hm
    cases hm
    exact Mover.tidy_start _ _ _ _ _
  cases first with
  | none => exact ⟨hengine, rfl, hmover⟩
  | some c =>
    exact ⟨hengine.step (.bootstrap c), Engine.refused_step hengine rfl (.bootstrap c), hmover⟩

/-! ## The mover on the shared store -/

/-- What a replica lends its mover for an input. -/
def surroundings (r : Replica) (now : Duration) : Surroundings :=
  ⟨r.engine.store, r.ids, r.detector.published, now⟩

section

variable {now : Duration} {input : Mover.Input} {m m' : Mover} {out : List Mover.Output}

/-- A mover that crashes is gone. -/
lemma withMover_of_error {crash : Mover.Crash} (hm : r.mover = some m)
    (h : (m.amid (r.surroundings now)).handle input = .error crash) :
    (r.withMover now input).1 = { r with mover := none } := by
  unfold withMover
  simp only [hm]
  split
  · rfl
  · rename_i heq
    cases h.symm.trans heq

/-- A mover leaves the store that it was lent as it made it. -/
lemma withMover_of_ok (hm : r.mover = some m)
    (h : (m.amid (r.surroundings now)).handle input = .ok (m', out)) :
    (r.withMover now input).1 = { r with
      mover := some m'
      ids := m'.ids
      engine := { r.engine with store := m'.store } } := by
  unfold withMover
  simp only [hm]
  split
  · rename_i heq
    cases h.symm.trans heq
  · rename_i heq
    cases h.symm.trans heq
    rfl

end

/-- What the engine makes of an input is sound. -/
lemma Sound.receive (h : r.Sound) (input : Engine.Input) {engine : Engine}
    (hengine : engine = r.engine.receive input) : ({ r with engine } : Replica).Sound := by
  subst hengine
  exact ⟨h.engine.run [input], Engine.refused_run h.engine h.store [input], h.mover⟩

/-- What the mover makes of an input on the shared store. -/
lemma Sound.withMover (h : r.Sound) (now : Duration) (input : Mover.Input) :
    (r.withMover now input).1.Sound := by
  cases hm : r.mover with
  | none =>
    unfold Replica.withMover
    rw [hm]
    exact h
  | some m =>
    have htidy := (h.mover m hm).amid (r.surroundings now)
    cases hhandle : (m.amid (r.surroundings now)).handle input with
    | error crash =>
      rw [withMover_of_error hm hhandle]
      exact ⟨h.engine, h.store, fun m' hm' => (nomatch hm')⟩
    | ok result =>
      rw [withMover_of_ok hm hhandle]
      refine ⟨h.engine.with_store result.1.store _, ?_, fun m' hm' => ?_⟩
      · -- pages are written by the same store, so it goes on refusing nothing
        show result.1.store.refused = []
        rw [Mover.store_of_handle htidy hhandle, Store.writeAll_refused]
        exact h.store
      · cases hm'
        exact Mover.tidy_of_handle htidy hhandle

/-- The engine and the mover are left alone by what concerns other components. -/
lemma Sound.of_eq (h : r.Sound) {r' : Replica} (hengine : r'.engine = r.engine)
    (hmover : r'.mover = r.mover) : r'.Sound :=
  ⟨hengine ▸ h.engine, hengine ▸ h.store, hmover ▸ h.mover⟩

lemma Sound.dispatch (h : r.Sound) (now : Duration) (e : Envelope) :
    (r.dispatch now e).1.Sound := by
  unfold Replica.dispatch
  by_cases hclosed : (!r.listening) = true
  · rw [if_pos hclosed]
    exact h
  · rw [if_neg hclosed]
    cases e.message.lane with
    | liveness => exact h.of_eq rfl rfl
    | client => exact h.of_eq rfl rfl
    | transfer =>
      simp only
      by_cases hmover : r.mover.isSome = true
      · rw [if_pos hmover]
        exact h.withMover now _
      · rw [if_neg hmover]
        exact h.of_eq rfl rfl

/-- Whatever a replica handles, it stays sound. -/
theorem Sound.handle (h : r.Sound) (now : Duration) (s : Signal) :
    (r.handle now s).1.Sound := by
  cases s with
  | inbound e => exact h.dispatch now e
  | decided i => exact h.receive (.decided i.position.toNat i.value) rfl
  | oracle event => exact h.receive (.oracle event) rfl
  | mover event => exact h.receive (.mover event) rfl
  | command c => exact h.withMover now _
  | alarm alarm =>
    cases alarm with
    | retry session => exact h.withMover now _
    | forwardTimeout id => exact h.of_eq rfl rfl
    | chore chore =>
      cases chore with
      | round => exact h.of_eq rfl rfl
      | report => exact h.of_eq rfl rfl
  | _ => exact h.of_eq rfl rfl

/-! ## Envelopes -/

/-- A mover on a store that refuses nothing writes what its replica says. -/
lemma written_of_reception {m : Mover} (hs : m.store.refused = []) (hlisten : r.listening = true)
    (hsessions : ∃ m₀, r.mover = some m₀ ∧ m.inbound = m₀.inbound ∧ m.completed = m₀.completed)
    (e : Envelope) :
    (m.reception? (.inbound e.src e.message)).elim [] Reception.written = r.brings e := by
  obtain ⟨m₀, hm₀, hinbound, hcompleted⟩ := hsessions
  have hreceiving : ∀ session, r.receiving? session =
      if m.completed.contains session then none else m.inbound.get? session := by
    intro session
    unfold receiving?
    rw [if_pos hlisten, hm₀, hinbound, hcompleted]
    rfl
  unfold brings Mover.reception?
  cases e.message with
  | data id payload isFinal =>
    simp only [hreceiving]
    by_cases hdone : m.completed.contains ⟨e.src, id⟩ = true
    · rw [if_pos hdone, if_pos hdone]
      rfl
    · rw [if_neg hdone, if_neg hdone]
      cases hget : m.inbound.get? ⟨e.src, id⟩ with
      | none => rfl
      | some s =>
        simp only
        cases Page.decode payload s.metadata.compressed with
        | error fault => rfl
        | ok items =>
          show ReceiverSession.written m.store.refused s.lastKey items = _
          rw [hs]
  | _ => rfl

lemma brings_of_lane {e : Envelope} (h : e.message.lane ≠ .transfer) : r.brings e = [] := by
  unfold brings
  cases hmessage : e.message with
  | data id payload isFinal =>
    rw [hmessage] at h
    exact absurd rfl h
  | _ => rfl

/-- An envelope changes the store by the items that it brings. -/
theorem store_inbound (h : r.Sound) (now : Duration) (e : Envelope) :
    (r.handle now (.inbound e)).1.engine.store = r.engine.store.writeAll (r.brings e) := by
  show (r.dispatch now e).1.engine.store = _
  have hunheard : (∀ session, r.receiving? session = none) → r.brings e = [] := by
    intro hnone
    unfold brings
    cases e.message with
    | data id payload isFinal => simp only [hnone]
    | _ => rfl
  unfold dispatch
  by_cases hlisten : r.listening = true
  · -- a page can only come in the lane of transfers
    rw [if_neg (by rw [hlisten]; simp)]
    cases hlane : e.message.lane with
    | liveness =>
      rw [brings_of_lane (by rw [hlane]; simp)]
      rfl
    | client =>
      rw [brings_of_lane (by rw [hlane]; simp)]
      rfl
    | transfer =>
      simp only
      cases hm : r.mover with
      | none =>
        have hnone : ∀ session, r.receiving? session = none := fun session => by
          unfold receiving?
          rw [hm]
          simp
        rw [if_neg (by simp), hunheard hnone]
        rfl
      | some m =>
        rw [if_pos (by simp)]
        have htidy := (h.mover m hm).amid (r.surroundings now)
        have hwritten := written_of_reception (m := m.amid (r.surroundings now)) h.store hlisten
          ⟨m, hm, rfl, rfl⟩ e
        cases hhandle : (m.amid (r.surroundings now)).handle (.inbound e.src e.message) with
        | error crash => cases hhandle -- only timers crash a mover
        | ok result =>
          have hstore := Mover.store_of_handle htidy hhandle
          rw [hwritten] at hstore
          rw [withMover_of_ok hm hhandle]
          exact hstore
  · have hclosed : (!r.listening) = true := by rw [Bool.not_eq_true] at hlisten; rw [hlisten]; rfl
    have hnone : ∀ session, r.receiving? session = none := fun session => by
      unfold receiving?
      exact if_neg hlisten
    rw [if_pos hclosed, hunheard hnone]
    rfl

/-- A page that reaches an open session brings what it holds above the last key. -/
lemma brings_of_page {e : Envelope} {id : SessionId} {payload : Bytes} {isFinal : Bool}
    {s : ReceiverSession} {items : List StoreItem} (hmessage : e.message = .data id payload isFinal)
    (hs : r.receiving? ⟨e.src, id⟩ = some s)
    (hpage : Page.decode payload s.metadata.compressed = .ok items) :
    r.brings e = ReceiverSession.written [] s.lastKey items := by
  unfold brings
  simp only [hmessage, hs, hpage]

/-- An envelope brings each key once at most. -/
lemma ascending_brings (r : Replica) (e : Envelope) : Ascending (r.brings e) := by
  unfold brings
  cases e.message with
  | data id payload isFinal =>
    simp only
    cases r.receiving? ⟨e.src, id⟩ with
    | none => exact .nil
    | some s =>
      simp only
      cases Page.decode payload s.metadata.compressed with
      | error fault => exact .nil
      | ok items => exact (ReceiverSession.ascending_written _ _ _).1
  | _ => exact .nil

/-- What an envelope brings lies above the last key of the session that it comes to. -/
lemma above_of_brings {e : Envelope} {i : StoreItem} (hi : i ∈ r.brings e) :
    ∃ session s, r.receiving? session = some s ∧ ReceiverSession.above s.lastKey i.key = true := by
  unfold brings at hi
  cases hmessage : e.message with
  | data id payload isFinal =>
    simp only [hmessage] at hi
    cases hs : r.receiving? ⟨e.src, id⟩ with
    | none =>
      simp only [hs] at hi
      cases hi
    | some s =>
      simp only [hs] at hi
      cases hpage : Page.decode payload s.metadata.compressed with
      | error fault =>
        simp only [hpage] at hi
        cases hi
      | ok items =>
        simp only [hpage] at hi
        exact ⟨_, s, hs, (ReceiverSession.ascending_written _ _ _).2 i hi⟩
  | _ =>
    simp only [hmessage] at hi
    cases hi

end Replica

end ReplicaRing
