import ReplicaRing.Proofs.PageForm
import ReplicaRing.Proofs.SharedStore

/-!
Pages that arrive late. A replica that is ready goes on writing the pages of sessions that are
still open, and nothing closes a session but its final page. So a decided write is safe from every
envelope exactly if each open session has got past its key, `Replica.decided_kept_iff`.
-/

namespace ReplicaRing

namespace Engine

/-- The keys that a value writes or deletes when it is applied, going by the answer. -/
def touched (e : Engine) : LogValue → List Key
  | .operation op =>
    if e.awaiting.isNone && [Response.written, .deleted].contains (e.execute op).2.response then
      op.kind.writes.map StoreItem.key
    else []
  | .noop | .reconfigure _ => []

/-- The keys that decided operations wrote or deleted since the engine became ready, a step
later. -/
def decidedBy (e : Engine) (keys : List Key) (s : Step) : List Key :=
  if (e.step s).state = .ready then
    keys ++ match s with
      | .value value => e.touched value
      | _ => []
  else []

/-- The same after some steps. -/
def decidedAfter : Engine → List Key → List Step → List Key
  | _, keys, [] => keys
  | e, keys, s :: rest => decidedAfter (e.step s) (e.decidedBy keys s) rest

/-- Keys are kept in mind only as long as the engine is ready. -/
lemma decidedAfter_ready {e : Engine} {keys : List Key} (h : keys ≠ [] → e.state = .ready)
    (steps : List Step) : e.decidedAfter keys steps ≠ [] → (e.follow steps).state = .ready := by
  induction steps generalizing e keys with
  | nil => exact h
  | cons s steps ih =>
    refine ih fun hne => ?_
    by_contra hnot
    exact hne (if_neg hnot)

end Engine

namespace Replica

/-- A replica, with the keys that decided operations wrote or deleted since it became ready. -/
structure Watched where
  replica : Replica
  decided : List Key

namespace Watched

/-- A replica that starts on a store, with a first configuration or without. -/
def start (self : NodeId) (config : Config) (placement : Placement)
    (entries : SortedMap Key (Option Bytes)) (compressor : BlockCompression.Compressor)
    (draws : Nat → Nat) (first : Option Reconfigure) : Watched :=
  ⟨((assemble self config placement ⟨entries, []⟩ compressor draws).bootstrap first).1, []⟩

/-- Handles a signal at its time. -/
def watch (w : Watched) (signal : Duration × Signal) : Watched where
  replica := (w.replica.handle signal.1 signal.2).1
  decided := w.replica.engine.decidedAfter w.decided
    ((engineInput? signal.2).elim [] w.replica.engine.stepsOf)

/-- Handles signals one after the other, whatever they are. -/
def run (w : Watched) (signals : List (Duration × Signal)) : Watched := signals.foldl watch w

end Watched

/-- The entry that is stored for a key. -/
def stored (r : Replica) (k : Key) : Option (Option Bytes) := r.engine.store.entries.get? k

variable {r : Replica}

/-- An envelope leaves a key alone exactly if it brings nothing else for it. -/
lemma entry_inbound_iff (h : r.Sound) (now : Duration) (e : Envelope) (k : Key) :
    (r.handle now (.inbound e)).1.stored k = r.stored k ↔
      ∀ i ∈ r.brings e, i.key = k → r.stored k = some i.value := by
  have hstore : (r.handle now (.inbound e)).1.stored k =
      (Store.lastFor k (r.brings e)).or (r.stored k) := by
    unfold stored
    rw [store_inbound h now e, Store.writeAll_get?]
  rw [hstore]
  constructor
  · rintro hkept i hi rfl
    rw [Store.lastFor_of_mem (ascending_brings r e) hi] at hkept
    exact hkept.symm
  · intro hsame
    by_cases hbrought : ∃ i ∈ r.brings e, i.key = k
    · obtain ⟨i, hi, rfl⟩ := hbrought
      rw [Store.lastFor_of_mem (ascending_brings r e) hi, hsame i hi rfl]
      rfl
    · rw [Store.lastFor_of_ne fun i hi hkey => hbrought ⟨i, hi, hkey⟩]
      rfl

/-- A key that lies above the last key of an open session can be overwritten by a page of it. -/
lemma exists_overwriting (h : r.Sound) {session : PeerSession} {s : ReceiverSession}
    (hs : r.receiving? session = some s) {k : Key} (hshort : k.length < 2 ^ 31)
    (habove : ReceiverSession.above s.lastKey k = true) (now : Duration) :
    ∃ e, (r.handle now (.inbound e)).1.stored k ≠ r.stored k := by
  -- a tombstone, unless there is one
  let v : Option Bytes := if r.stored k = some none then some [] else none
  have hv : (v.getD []).length = 0 := by
    show (Option.getD (if r.stored k = some none then some [] else none) []).length = 0
    split
    · rfl
    · rfl
  have hother : r.stored k ≠ some v := by
    show r.stored k ≠ some (if r.stored k = some none then some [] else none)
    by_cases hnone : r.stored k = some none
    · rw [if_pos hnone, hnone]
      simp
    · rw [if_neg hnone]
      exact hnone
  let e : Envelope := ⟨session.peer, r.self,
    .data session.id (Page.encode [⟨k, v⟩] s.metadata.compressed) false⟩
  have hpage := Page.decode_encodeWith_singleton .literal (i := ⟨k, v⟩)
    (by simp only [hv]; omega) s.metadata.compressed
  have hbrings : r.brings e = [⟨k, v⟩] := by
    rw [brings_of_page (e := e) rfl hs hpage]
    rw [ReceiverSession.written, if_neg (by rw [habove]; simp), if_neg (by simp)]
    rfl
  refine ⟨e, fun hkept => hother ?_⟩
  exact (entry_inbound_iff h now e k).1 hkept ⟨k, v⟩ (by rw [hbrings]; simp) rfl

/-- Signals of other components, and those of the mover, leave the state of the engine alone. -/
lemma state_handle {s : Signal} (h : engineInput? s = none) (now : Duration) :
    (r.handle now s).1.engine.state = r.engine.state := by
  have hmover : ∀ input, (r.withMover now input).1.engine.state = r.engine.state := by
    intro input
    unfold withMover
    cases r.mover with
    | none => rfl
    | some m =>
      simp only
      split
      · rfl
      · rfl
  cases s with
  | inbound e =>
    show (r.dispatch now e).1.engine.state = _
    unfold dispatch
    split
    · rfl
    · split
      · rfl
      · rfl
      · split
        · exact hmover _
        · rfl
  | command c => exact hmover _
  | alarm alarm =>
    cases alarm with
    | retry session => exact hmover _
    | forwardTimeout id => rfl
    | chore chore =>
      cases chore with
      | round => rfl
      | report => rfl
  | decided i => cases h
  | oracle event => cases h
  | mover event => cases h
  | _ => rfl

/-- What a signal is to the engine is all that it does to it. -/
lemma engine_handle {s : Signal} {input : Engine.Input} (h : engineInput? s = some input)
    (now : Duration) : (r.handle now s).1.engine = r.engine.receive input := by
  cases s with
  | decided i =>
    cases h
    rfl
  | oracle event =>
    cases h
    rfl
  | mover event =>
    cases h
    rfl
  | _ => cases h

/-- A replica on a store that refuses nothing, ready as long as keys are kept in mind. -/
lemma sound_run {w : Watched} (h : w.replica.Sound)
    (hready : w.decided ≠ [] → w.replica.engine.state = .ready)
    (signals : List (Duration × Signal)) :
    (w.run signals).replica.Sound ∧
      ((w.run signals).decided ≠ [] → (w.run signals).replica.engine.state = .ready) := by
  induction signals generalizing w with
  | nil => exact ⟨h, hready⟩
  | cons signal signals ih =>
    refine ih (w := w.watch signal) (h.handle signal.1 signal.2) ?_
    show w.replica.engine.decidedAfter w.decided _ ≠ [] →
      (w.replica.handle signal.1 signal.2).1.engine.state = .ready
    cases hinput : engineInput? signal.2 with
    | none =>
      rw [state_handle hinput]
      exact hready
    | some input =>
      -- the input is a row of steps, and the keys are kept in mind over each of them
      have hrun := w.replica.engine.run_eq [input]
      rw [engine_handle hinput]
      show _ → (w.replica.engine.run [input]).state = .ready
      rw [hrun]
      have hsteps : w.replica.engine.stepsOfAll [input] = w.replica.engine.stepsOf input :=
        List.append_nil _
      rw [hsteps]
      exact Engine.decidedAfter_ready hready _

/-- Whatever a replica handled, it is ready while it has decided writes to keep. An envelope undoes
one of them exactly if it brings another entry to a session that is open and has not got past its
key. So a decided write is safe from every envelope exactly if all open sessions got past its
key. -/
theorem decided_kept_iff {self : NodeId} {config : Config} {placement : Placement}
    {entries : SortedMap Key (Option Bytes)} {compressor : BlockCompression.Compressor}
    {draws : Nat → Nat} {first : Option Reconfigure}
    {signals : List (Duration × Signal)} {w : Watched}
    (hrun : (Watched.start self config placement entries compressor draws first).run signals =
      w) :
    ∀ k ∈ w.decided,
      w.replica.engine.state = .ready ∧
      (∀ now e, (w.replica.handle now (.inbound e)).1.stored k = w.replica.stored k ↔
        ∀ i ∈ w.replica.brings e, i.key = k → w.replica.stored k = some i.value) ∧
      (k.length < 2 ^ 31 →
        ((∀ now e, (w.replica.handle now (.inbound e)).1.stored k = w.replica.stored k) ↔
          ∀ session s, w.replica.receiving? session = some s →
            ReceiverSession.above s.lastKey k = false)) := by
  intro k hk
  obtain ⟨hsound, hready⟩ := sound_run
    (w := Watched.start self config placement entries compressor draws first)
    (sound_assemble self config placement entries compressor draws first)
    (fun hne => absurd rfl hne) signals
  rw [hrun] at hsound hready
  refine ⟨hready (List.ne_nil_of_mem hk), fun now e => entry_inbound_iff hsound now e k, ?_⟩
  intro hshort
  constructor
  · intro hkept session s hs
    by_contra habove
    -- a session that has not got past the key takes a page with another entry for it
    rw [Bool.not_eq_false] at habove
    obtain ⟨e, he⟩ := exists_overwriting hsound hs hshort habove 0
    exact he (hkept _ e)
  · intro hpast now e
    rw [entry_inbound_iff hsound now e k]
    -- whatever an envelope brings lies above the last key of an open session
    intro i hi hkey
    obtain ⟨session, s, hs, habove⟩ := above_of_brings hi
    rw [hkey, hpast session s hs] at habove
    cases habove

/-! ## A late page -/

/-- A replica of two that joins with a transfer from the other. -/
def pair : Watched :=
  .start ⟨"b", 1, none⟩ (.sample "b:1" "b:1") ⟨∅⟩ ∅ .literal (fun _ => 0)
    (some ⟨.ofList 4 [⟨"a", 1, none⟩, ⟨"b", 1, none⟩], 2, 1, .full⟩)

/-- A frame from the other. -/
def fromPeer (message : Message) : Signal := .inbound ⟨⟨"a", 1, none⟩, ⟨"b", 1, none⟩, message⟩

/-- The final page of a session, with one old value. -/
def oldPage (id : SessionId) : Message := .data id (Page.encode [⟨[0x61], some [0x30]⟩] false) true

/-- The transfer of the view lands, then a write is decided. -/
def caughtUp : List (Duration × Signal) :=
  [(0, fromPeer (.initiateTransfer 2 ⟨.full, 4, false⟩)), (0, fromPeer (oldPage 2)),
    (0, .mover (.transferComplete 2 ⟨"a", 1, none⟩ ⟨.full, 4, false⟩ 1 2)),
    (0, .decided ⟨1, .operation ⟨7, .put [0x61] [0x31]⟩⟩)]

/-- With no session left open, the write is safe. -/
theorem decided_kept_iff_caughtUp :
    [0x61] ∈ (pair.run caughtUp).decided ∧
      ∀ now e, ((pair.run caughtUp).replica.handle now (.inbound e)).1.stored [0x61] =
        some (some [0x31]) := by
  have hdecided : (pair.run caughtUp).decided = [[0x61]] := by decide +kernel
  have hmem : [0x61] ∈ (pair.run caughtUp).decided := by rw [hdecided]; simp
  have hclosed : (pair.run caughtUp).replica.mover.map Mover.inbound = some ∅ := by decide +kernel
  have hentry : (pair.run caughtUp).replica.stored [0x61] = some (some [0x31]) := by decide +kernel
  have hopen : ∀ session, (pair.run caughtUp).replica.receiving? session = none := by
    intro session
    cases hm : (pair.run caughtUp).replica.mover with
    | none =>
      rw [hm] at hclosed
      cases hclosed
    | some m =>
      rw [hm, Option.map_some, Option.some_inj] at hclosed
      unfold receiving?
      rw [hm, Option.bind_some, hclosed, SortedMap.get?_empty]
      split
      · split
        · rfl
        · rfl
      · rfl
  obtain ⟨-, -, hsafe⟩ := decided_kept_iff (w := pair.run caughtUp) rfl [0x61] hmem
  refine ⟨hmem, fun now e => ((hsafe (by simp)).2 ?_ now e).trans hentry⟩
  intro session s hs
  rw [hopen session] at hs
  cases hs

/-- A session of an older view that was opened before may still write its page. -/
theorem decided_undone_late :
    let w := pair.run ((0, fromPeer (.initiateTransfer 1 ⟨.full, 2, false⟩)) :: caughtUp)
    [0x61] ∈ w.decided ∧ w.replica.engine.state = .ready ∧
      w.replica.stored [0x61] = some (some [0x31]) ∧
      (w.replica.handle 0 (fromPeer (oldPage 1))).1.stored [0x61] = some (some [0x30]) := by
  decide +kernel

end Replica

end ReplicaRing
