import ReplicaRing.Proofs.FinalPages
import ReplicaRing.Proofs.TransferCompleteness

/-!
What the end of a transfer at its sender says about the receiver. The sender takes any
acknowledgement for that of the page in flight, also one that was sent before the page arrived. So
when it takes its transfer for finished, the receiver has completed it exactly if it has
acknowledged the page in flight by then, `Link.sendFinished_iff_acknowledged`.
-/

namespace ReplicaRing

namespace Link

/-! ## What was told and acknowledged -/

/-- The events of a run, each with what the mover concerned put out. -/
def trace (id : SessionId) (l : Link) : List Event → List (Event × List Mover.Output)
  | [] => []
  | event :: rest =>
    match l.step id event with
    | none => []
    | some (l', out) => (event, out) :: trace id l' rest

/-- The receiver told that the session is complete. -/
def Told (key : PeerSession) (past : List (Event × List Mover.Output)) : Prop :=
  ∃ input out, (.receiver input, out) ∈ past ∧ Mover.Completes key out

/-- The final page with that payload reached the receiver and was acknowledged. -/
def Acknowledged (node : NodeId) (key : PeerSession) (payload : Bytes)
    (past : List (Event × List Mover.Output)) : Prop :=
  ∃ out, (.receiver (.inbound key.peer (.data key.id payload true)), out) ∈ past ∧
    .send ⟨node, key.peer, .allReceived key.id⟩ ∈ out

section

variable {id : SessionId} {l l' : Link} {past more : List (Event × List Mover.Output)}
  {event : Event} {out : List Mover.Output} {key : PeerSession} {node : NodeId} {payload : Bytes}

lemma told_snoc : Told key (past ++ [(event, out)]) ↔
    Told key past ∨ (∃ input, event = .receiver input) ∧ Mover.Completes key out := by
  simp only [Told, List.mem_append, List.mem_singleton, Prod.mk.injEq]
  constructor
  · rintro ⟨input, out', hmem | ⟨rfl, rfl⟩, hcompletes⟩
    · exact .inl ⟨input, out', hmem, hcompletes⟩
    · exact .inr ⟨⟨input, rfl⟩, hcompletes⟩
  · rintro (⟨input, out', hmem, hcompletes⟩ | ⟨⟨input, rfl⟩, hcompletes⟩)
    · exact ⟨input, out', .inl hmem, hcompletes⟩
    · exact ⟨input, out, .inr ⟨rfl, rfl⟩, hcompletes⟩

lemma acknowledged_snoc : Acknowledged node key payload (past ++ [(event, out)]) ↔
    Acknowledged node key payload past ∨
      event = .receiver (.inbound key.peer (.data key.id payload true)) ∧
        .send ⟨node, key.peer, .allReceived key.id⟩ ∈ out := by
  simp only [Acknowledged, List.mem_append, List.mem_singleton, Prod.mk.injEq]
  constructor
  · rintro ⟨out', hmem | ⟨rfl, rfl⟩, hack⟩
    · exact .inl ⟨out', hmem, hack⟩
    · exact .inr ⟨rfl, hack⟩
  · rintro (⟨out', hmem, hack⟩ | ⟨rfl, hack⟩)
    · exact ⟨out', .inl hmem, hack⟩
    · exact ⟨out, .inr ⟨rfl, rfl⟩, hack⟩

/-- The ends' accounts of a session, after what happened so far. -/
structure Account (id : SessionId) (past : List (Event × List Mover.Output)) (l : Link) : Prop where
  inv : Inv id l
  session : ∀ s, l.sender.outbound.get? id = some s → Mover.Awaits id l.sender.self l.sent s
  completed : l.receiver.completed.contains (l.key id) = true → Told (l.key id) past
  told : Told (l.key id) past → ∃ payload, Acknowledged l.receiver.self (l.key id) payload past ∧
    ⟨l.sender.self, l.receiver.self, .data id payload true⟩ ∈ l.sent
  acknowledged : ∀ payload, Acknowledged l.receiver.self (l.key id) payload past →
    Told (l.key id) past

lemma account_start {a b : NodeId} (hab : a ≠ b) (config config' : TransferConfig)
    (store store' : Store) (ids ids' : IdSource) (c c' : BlockCompression.Compressor) :
    Account id [] (start (.start a config store ids c) (.start b config' store' ids' c')) where
  inv := inv_start hab config config' store store' ids ids' c c'
  session := fun s hs => by cases (SortedMap.get?_empty id).symm.trans hs
  completed := fun h => by cases h
  told := by
    rintro ⟨_, _, hmem, -⟩
    cases hmem
  acknowledged := by
    rintro _ ⟨_, hmem, -⟩
    cases hmem

/-- Nothing changes in the receiver's account without an input of the receiver. -/
lemma Account.of_quiet (h : Account id past l) (hinv : Inv id l')
    (hsession : ∀ s, l'.sender.outbound.get? id = some s →
      Mover.Awaits id l'.sender.self l'.sent s)
    (hself : l'.sender.self = l.sender.self) (hself' : l'.receiver.self = l.receiver.self)
    (hcompleted : l'.receiver.completed = l.receiver.completed) (hsent : l.sent ⊆ l'.sent)
    (hevent : ∀ input, event ≠ .receiver input) : Account id (past ++ [(event, out)]) l' := by
  have hkey : l'.key id = l.key id := by
    unfold key
    rw [hself]
  have htold : Told (l.key id) (past ++ [(event, out)]) ↔ Told (l.key id) past :=
    told_snoc.trans (or_iff_left fun hmore => hmore.1.elim hevent)
  have hacknowledged : ∀ payload,
      Acknowledged l.receiver.self (l.key id) payload (past ++ [(event, out)]) ↔
        Acknowledged l.receiver.self (l.key id) payload past := fun payload =>
    acknowledged_snoc.trans (or_iff_left fun hmore => hevent _ hmore.1)
  refine ⟨hinv, hsession, ?_, ?_, ?_⟩
  · rw [hkey, htold, hcompleted]
    exact h.completed
  · rw [hkey, htold, hself, hself']
    intro hpast
    obtain ⟨payload, hack, hmem⟩ := h.told hpast
    exact ⟨payload, (hacknowledged payload).2 hack, hsent hmem⟩
  · rw [hkey, htold, hself']
    exact fun payload hack => h.acknowledged payload ((hacknowledged payload).1 hack)

/-- The session of the sender after the sender handled an input. -/
lemma Account.session_handles (h : Account id past l) {input : Mover.Input} {m : Mover}
    (hhandle : l.sender.handle input = .ok (m, out))
    (honce : l.sender.opening? input id = none ∨ l.opened = none) :
    ∀ s, m.outbound.get? id = some s →
      Mover.Awaits id m.self (l.sent ++ Mover.envelopes out) s := by
  have hstep := Mover.sessionStep_of_handle h.inv.sender hhandle id
  rw [(Mover.handle_self h.inv.sender hhandle).1]
  refine Mover.Awaits.step h.session (fun hopening => ?_) hstep
  -- the number is drawn for this session, so no frame carries it yet
  rcases honce with hnone | hopened
  · rw [hnone] at hopening
    cases hopening
  · exact (h.inv.unopened hopened).1

/-- What the receiver handles keeps its account: a session is completed with the acknowledgement
of a final page that the sender sent, and an acknowledged final page has its session completed. -/
lemma Account.receiver_handles (h : Account id past l) {input : Mover.Input} {m : Mover}
    (hcarries : l.carries l.sender.self l.receiver.self input = true)
    (hhandle : l.receiver.handle input = .ok (m, out)) (hinv : Inv id l')
    (hsender : l'.sender = l.sender) (hreceiver : l'.receiver = m)
    (hsent : l'.sent = l.sent ++ Mover.envelopes out) :
    Account id (past ++ [(.receiver input, out)]) l' := by
  obtain ⟨hself, -, hsrc⟩ := Mover.handle_self h.inv.receiver hhandle
  have hkey : l'.key id = l.key id := by
    unfold key
    rw [hsender]
  have hother : ∀ e ∈ Mover.envelopes out, e.src ≠ l.sender.self := fun e he =>
    hsrc e he ▸ h.inv.distinct.symm
  refine ⟨hinv, ?_, ?_, ?_, ?_⟩
  · rw [hsender, hsent]
    exact fun s hs => (h.session s hs).append fun e he heq => absurd heq (hother e he)
  · rw [hkey, told_snoc, hreceiver]
    intro hcontains
    rcases Mover.completes_of_contains h.inv.receiver hhandle hcontains with hbefore | hnow
    · exact .inl (h.completed hbefore)
    · exact .inr ⟨⟨input, rfl⟩, hnow⟩
  · rw [hkey, hsender, hreceiver, hself, hsent, told_snoc]
    rintro (hbefore | ⟨-, hnow⟩)
    · obtain ⟨payload, hack, hmem⟩ := h.told hbefore
      exact ⟨payload, acknowledged_snoc.2 (.inl hack), List.mem_append.2 (.inl hmem)⟩
    · obtain ⟨payload, rfl, hack⟩ := Mover.acknowledged_of_completes h.inv.receiver hhandle hnow
      exact ⟨payload, acknowledged_snoc.2 (.inr ⟨rfl, hack⟩),
        List.mem_append.2 (.inl (mem_sent_of_carries hcarries))⟩
  · rw [hkey, hreceiver, hself]
    intro payload hack
    rcases acknowledged_snoc.1 hack with hbefore | ⟨heq, hnow⟩
    · exact told_snoc.2 (.inl (h.acknowledged payload hbefore))
    · obtain rfl : input = _ := by simpa using heq
      rcases Mover.completes_of_acknowledged hhandle hnow with hcontains | hcompletes
      · exact told_snoc.2 (.inl (h.completed hcontains))
      · exact told_snoc.2 (.inr ⟨⟨_, rfl⟩, hcompletes⟩)

/-- Every event keeps the accounts. -/
theorem Account.step (h : Account id past l) (hstep : l.step id event = some (l', out)) :
    Account id (past ++ [(event, out)]) l' := by
  obtain ⟨hinv, hself, hself', -⟩ := h.inv.step hstep
  cases event with
  | sender input =>
    obtain ⟨m, hhandle, -, honce, rfl⟩ := stepSender_eq_some hstep
    exact h.of_quiet hinv (h.session_handles hhandle honce) hself hself' rfl
      (List.subset_append_left _ _) fun _ heq => (nomatch heq)
  | receiver input =>
    obtain ⟨m, hcarries, hhandle, rfl⟩ := stepReceiver_eq_some hstep
    exact h.receiver_handles hcarries hhandle hinv rfl rfl rfl
  | amidSender w =>
    unfold Link.step at hstep
    simp only at hstep
    split at hstep
    · cases hstep
      exact h.of_quiet hinv h.session hself hself' rfl (List.Subset.refl _)
        fun _ heq => (nomatch heq)
    · cases hstep
  | amidReceiver w =>
    cases hstep
    exact h.of_quiet hinv h.session hself hself' rfl (List.Subset.refl _)
      fun _ heq => (nomatch heq)

theorem Account.run {events : List Event} (h : Account id past l)
    (hrun : l.run id events = some l') : Account id (past ++ trace id l events) l' := by
  induction events generalizing l past with
  | nil =>
    cases hrun
    rw [trace, List.append_nil]
    exact h
  | cons event events ih =>
    unfold Link.run at hrun
    obtain ⟨⟨l₁, out⟩, hstep, hrest⟩ := Option.bind_eq_some_iff.1 hrun
    have hlater := ih (h.step hstep) hrest
    rw [List.append_assoc] at hlater
    rw [trace, hstep]
    exact hlater

/-! ## Agreement at the end -/

/-- When the sender takes a transfer for finished, its final page is in flight, and the receiver
has told that the transfer is complete exactly if it has acknowledged that page by then. -/
theorem sendFinished_iff_acknowledged {a b : NodeId} (hab : a ≠ b)
    {config config' : TransferConfig} {store store' : Store} {ids ids' : IdSource}
    {c c' : BlockCompression.Compressor} {l₀ : Link}
    (hstart : l₀ = start (.start a config store ids c) (.start b config' store' ids' c'))
    {events : List Event} {input : Mover.Input} {items bytes : Nat}
    (hrun : l₀.run id events = some l) (hstep : l.step id (.sender input) = some (l', out))
    (hfinished : .event (.sendFinished id b items bytes) ∈ out) :
    ∃ s payload, l.sender.outbound.get? id = some s ∧
      s.inFlight = some (.data id payload true) ∧
      (Told ⟨a, id⟩ (trace id l₀ events) ↔ Acknowledged b ⟨a, id⟩ payload (trace id l₀ events)) := by
  subst hstart
  obtain ⟨-, hself, hself', -⟩ :=
    (inv_start hab config config' store store' ids ids' c c').run hrun
  replace hself : l.sender.self = a := hself
  replace hself' : l.receiver.self = b := hself'
  have haccount := (account_start hab config config' store store' ids ids' c c').run hrun
  have hkey : l.key id = ⟨a, id⟩ := by
    unfold key
    rw [hself]
  obtain ⟨m, hhandle, -, -, rfl⟩ := stepSender_eq_some hstep
  obtain ⟨-, s, hget, hstate, hfinal⟩ := Mover.sendFinished_of_handle hhandle hfinished
  have hawaits := haccount.session s hget
  obtain ⟨payload, hflight⟩ := hawaits.page hstate
  rw [hfinal] at hflight
  refine ⟨s, payload, hget, hflight, fun htold => ?_, fun hack => ?_⟩
  · -- the final page that was acknowledged was sent, so it is the one in flight
    rw [← hkey] at htold
    obtain ⟨payload', hack, hsent⟩ := haccount.told htold
    have hsame := (hawaits.final _ hsent rfl payload' rfl).2
    rw [hflight] at hsame
    obtain rfl : payload = payload' := by simpa using hsame
    rwa [hkey, hself'] at hack
  · have htold := haccount.acknowledged payload
    rw [hkey, hself'] at htold
    exact htold hack

end

namespace ThreePages

/-- A run, and the step in which a further acknowledgement reaches the sender. -/
def concluded (events : List Event) : Option (Link × Link × List Mover.Output) :=
  (link.run 1 events).bind fun l => (l.step 1 acknowledgement).map fun r => (l, r.1, r.2)

lemma of_concluded {events : List Event} {l l' : Link} {out : List Mover.Output}
    (h : concluded events = some (l, l', out)) :
    link.run 1 events = some l ∧ l.step 1 acknowledgement = some (l', out) := by
  unfold concluded at h
  obtain ⟨l₀, hrun, hstep⟩ := Option.bind_eq_some_iff.1 h
  obtain ⟨r, hr, heq⟩ := Option.map_eq_some_iff.1 hstep
  cases heq
  exact ⟨hrun, hr⟩

end ThreePages

open ThreePages in
/-- The last page arrives, and its acknowledgement finishes the transfer at the sender too. -/
theorem sendFinished_iff_acknowledged_undisturbed : ∃ l l' out payload,
    link.run 1 (undisturbed ++ [arrival 3]) = some l ∧
      l.step 1 acknowledgement = some (l', out) ∧ .event (.sendFinished 1 b 3 6) ∈ out ∧
      page 3 = .data 1 payload true ∧
      Told ⟨a, 1⟩ (trace 1 link (undisturbed ++ [arrival 3])) ∧
      Acknowledged b ⟨a, 1⟩ payload (trace 1 link (undisturbed ++ [arrival 3])) := by
  obtain ⟨⟨l, l', out⟩, h⟩ : ∃ x, concluded (undisturbed ++ [arrival 3]) = some x :=
    Option.isSome_iff_exists.1 rfl
  obtain ⟨hrun, hstep⟩ := of_concluded h
  have hout : (concluded (undisturbed ++ [arrival 3])).map (fun x => x.2.2) =
      some [.event (.sendFinished 1 b 3 6)] := rfl
  have hflight : (concluded (undisturbed ++ [arrival 3])).map (fun x =>
      (x.1.sender.outbound.get? 1).map SenderSession.inFlight) = some (some (some (page 3))) := rfl
  rw [h, Option.map_some, Option.some_inj] at hout hflight
  have hevent : .event (.sendFinished 1 b 3 6) ∈ out := by
    rw [show out = _ from hout]
    exact List.mem_singleton.2 rfl
  have hlast : (trace 1 link (undisturbed ++ [arrival 3])).getLast? = some (arrival 3,
      [.send ⟨b, a, .allReceived 1⟩,
        .event (.transferComplete 1 a brought.metadata 3 6)]) := rfl
  have htold : Told ⟨a, 1⟩ (trace 1 link (undisturbed ++ [arrival 3])) :=
    ⟨_, _, List.mem_of_getLast? hlast, brought.metadata, 3, 6,
      List.mem_cons_of_mem _ (List.mem_singleton.2 rfl)⟩
  obtain ⟨s, payload, hget, hpage, hiff⟩ :=
    sendFinished_iff_acknowledged (by decide) rfl hrun hstep hevent
  rw [show l.sender.outbound.get? 1 = _ from hget, Option.map_some, hpage, Option.some_inj,
    Option.some_inj] at hflight
  exact ⟨l, l', out, payload, hrun, hstep, hevent, hflight.symm, htold, hiff.1 htold⟩

open ThreePages in
/-- A further copy of an old acknowledgement finishes a transfer that the receiver has told
nothing of. -/
theorem sendFinished_disturbed : ∃ l l' out,
    link.run 1 disturbed = some l ∧ l.step 1 acknowledgement = some (l', out) ∧
      .event (.sendFinished 1 b 3 6) ∈ out ∧ ¬ Told ⟨a, 1⟩ (trace 1 link disturbed) ∧
      l.receiver.inbound.contains ⟨a, 1⟩ = true := by
  obtain ⟨⟨l, l', out⟩, h⟩ : ∃ x, concluded disturbed = some x := Option.isSome_iff_exists.1 rfl
  obtain ⟨hrun, hstep⟩ := of_concluded h
  have hout : (concluded disturbed).map (fun x => x.2.2) =
      some [.event (.sendFinished 1 b 3 6)] := rfl
  have hopen : (concluded disturbed).map (fun x => x.1.receiver.inbound.contains ⟨a, 1⟩) =
      some true := rfl
  rw [h, Option.map_some, Option.some_inj] at hout hopen
  refine ⟨l, l', out, hrun, hstep, ?_, ?_, hopen⟩
  · rw [show out = _ from hout]
    exact List.mem_singleton.2 rfl
  · -- nothing at all was told before
    have hquiet : (trace 1 link disturbed).flatMap (fun x => Mover.eventsIn x.2) = [] := rfl
    rintro ⟨input, out', hmem, metadata, items, bytes, hevent⟩
    have hnone := List.flatMap_eq_nil_iff.1 hquiet _ hmem
    have htold := Mover.mem_eventsIn.2 hevent
    rw [hnone] at htold
    cases htold

end Link

end ReplicaRing
