import ReplicaRing.Proofs.EngineStates
import ReplicaRing.Proofs.RangeInclusion
import ReplicaRing.Routing.Router

/-!
Which operations a replica takes in. An engine refuses an operation that does not lie inside its
responsibility, and a router submits only those that do. Both ask the bounds. So the rest of a range
that was read is never refused, `paging_stays_inside`; and of the operations whose keys are all keys
of the responsibility those are turned away that are range queries with an end written in another
way than that of the responsibility, `inside_served_iff`.
-/

namespace ReplicaRing

/-! ## The keys of an operation -/

/-- Whether an operation touches a key. -/
def Target.Touches : Target → Key → Prop
  | .key k, x => x = k
  | .range q, x => q.contains x = true
  | .unrouted, _ => False

namespace KeyRange

/-- Every key that an operation touches is a key of the range. -/
def Encloses (r : KeyRange) (t : Target) : Prop := ∀ k, t.Touches k → r.contains k = true

/-- The operation is on a range that may be included without being covered. -/
def Mistakes (r : KeyRange) (t : Target) : Prop := ∃ q, t = .range q ∧ r.Overlooks q

lemma admits_iff {r : KeyRange} {t : Target} :
    r.admits t = true ↔ r.Encloses t ∧ ¬ r.Mistakes t := by
  cases t with
  | key k => simp [admits, Encloses, Mistakes, Target.Touches]
  | range q =>
    rw [admits, covers_iff]
    simp [Encloses, Mistakes, Includes, Target.Touches]
  | unrouted => simp [admits, Encloses, Mistakes, Target.Touches]

end KeyRange

/-! ## Engines -/

namespace Engine

/-- An engine refuses an operation that is new to it exactly if its responsibility does not admit
it. -/
lemma refuses_iff (e : Engine) (op : Operation) :
    (e.execute op).2.response = .unavailable "outside responsibility" ↔
      e.executed.contains op.id = false ∧
        ∃ r, e.installed = some r ∧ r.responsibility.admits op.target = false := by
  have h := e.handled op
  generalize e.execute op = result at h ⊢
  cases h with
  | duplicate hknown => simp [Answer.unchanged, hknown]
  | noView hnew hnone => simp [unavailable, Answer.unchanged, hnone]
  | outside hnew hr hout => simp [unavailable, Answer.unchanged, hnew, hr, hout]
  | performed hnew hr hin hdone =>
    -- no operation is performed with this answer
    have hperformed := performed hdone
    generalize op.kind = kind at hperformed
    cases hperformed with
    | _ => simp [hr, hin]
  | failed hnew hr hin hfault => simp [Answer.unchanged, hr, hin]

/-- A range query that is answered with a range was covered, and what remains lies above a key. -/
lemma covers_of_answered {e : Engine} {n : OperationId} {range rest : KeyRange}
    {limit : Option UInt64} {items : List (Key × Bytes)}
    (h : (e.execute ⟨n, .rangeQuery range limit⟩).2.response = .range items (some rest)) :
    ∃ r k, e.installed = some r ∧ r.responsibility.covers range = true ∧ rest = range.after k := by
  have hhandled := e.handled ⟨n, .rangeQuery range limit⟩
  generalize e.execute ⟨n, .rangeQuery range limit⟩ = result at hhandled h
  cases hhandled with
  | performed hnew hr hin hdone =>
    cases performed hdone with
    | rangeQuery hrest =>
      obtain ⟨-, rfl⟩ := Response.range.inj h
      obtain ⟨k, hk⟩ := hrest rest rfl
      exact ⟨_, k, hr, hin, hk⟩
  | _ => simp [unavailable, Answer.unchanged] at h

end Engine

/-! ## Routers -/

namespace Router

/-- An active router gives an operation to its engine exactly if it lies inside the
responsibility. -/
lemma submits_iff {r : Router} {op : Operation} {reply : ReplyTo} (hactive : r.state = .active)
    (hfree : r.pending.contains op.id = false) :
    (r.request op reply).2 = [.submit op] ↔ r.isInside op = true := by
  -- what is not its own affair goes to a peer or back to where it came from
  have hdeliver : ∀ (r : Router) (a : Answer), r.deliver reply a ≠ .submit op := by
    intro r a
    cases reply with
    | caller ticket => simp [deliver]
    | remote n => simp [deliver]
  unfold request isInside
  simp only [hfree, Bool.false_eq_true, if_false, hactive]
  by_cases hin : r.responsibility.any (·.admits op.target) = true
  · simp only [hin, if_true]
  · simp only [hin, Bool.false_eq_true, if_false, iff_false]
    split
    · simp [refuse, hdeliver]
    · simp [refuse, hdeliver]
    · split
      · simp [refuse, hdeliver]
      · simp [forward]

end Router

/-! ## What is taken in -/

/-- Covering is an order of ranges within inclusion. What of a range lies above a key holds the keys
above it, and is covered by whoever covers the range. So an engine that has answered a range query
with a part of it does not refuse to go on with the rest, as long as its responsibility stays. -/
theorem paging_stays_inside :
    (∀ a b : KeyRange, a.covers b = true → ∀ k, b.contains k = true → a.contains k = true) ∧
      (∀ a : KeyRange, a.covers a = true) ∧
      (∀ a b c : KeyRange, a.covers b = true → b.covers c = true → a.covers c = true) ∧
      (∀ (b : KeyRange) (k x : Key),
        (b.after k).contains x = true ↔ b.contains x = true ∧ compare k x = .lt) ∧
      (∀ (a b : KeyRange) (k : Key), a.covers b = true → a.covers (b.after k) = true) ∧
      ∀ (e e' : Engine) (n n' : OperationId) (range rest : KeyRange) (limit limit' : Option UInt64)
        (items : List (Key × Bytes)),
        (e.execute ⟨n, .rangeQuery range limit⟩).2.response = .range items (some rest) →
        e'.installed.map Reconfigure.responsibility = e.installed.map Reconfigure.responsibility →
        (e'.execute ⟨n', .rangeQuery rest limit'⟩).2.response ≠
          .unavailable "outside responsibility" := by
  refine ⟨fun a b hab k hk => KeyRange.contains_of_covers hab hk, KeyRange.covers_refl,
    fun a b c hab hbc => KeyRange.covers_trans hab hbc, fun b k x => KeyRange.contains_after,
    fun a b k hab => KeyRange.covers_after hab k, ?_⟩
  intro e e' n n' range rest limit limit' items hanswer hsame hrefused
  obtain ⟨r, k, hr, hcovers, rfl⟩ := Engine.covers_of_answered hanswer
  obtain ⟨-, r', hr', hout⟩ := (e'.refuses_iff _).1 hrefused
  -- the responsibility that refuses the rest is the one that covered the range
  have hequal : r'.responsibility = r.responsibility := by simpa [hr, hr'] using hsame
  have hin : r'.responsibility.covers (range.after k) = true := by
    rw [hequal]
    exact KeyRange.covers_after hcovers k
  exact Bool.false_ne_true (hout.symm.trans hin)

namespace Solo

def a : NodeId := ⟨"a", 1, none⟩

/-- A replica of its own with two entries, which answers a range query with one of them. -/
def replica (responsibility : KeyRange) : Engine :=
  ((Engine.start a { pageItems := 1 }
    (.ofList [([0x61], [0x31]), ([0x62], [0x32])])).bootstrap
      ⟨.ofList 1 [a], 1, 0, responsibility⟩).1

/-- The keys up to `m`, of which a client asks for those up to `c`. -/
def letters : KeyRange := .halfOpen [0x61] [0x6d]

def asked : KeyRange := .halfOpen [0x61] [0x63]

/-- What the first page leaves of them. -/
def left : KeyRange := ⟨.excluded [0x61], .excluded [0x63]⟩

end Solo

open Solo in
/-- A replica that is responsible for the letters reads on where its first page ended. -/
theorem paging_stays_inside_letters :
    let first := (replica letters).execute ⟨7, .rangeQuery asked none⟩
    letters.covers asked = true ∧ asked.covers left = true ∧
      first.2.response = .range [([0x61], [0x31])] (some left) ∧
      first.1.installed.map Reconfigure.responsibility =
        (replica letters).installed.map Reconfigure.responsibility ∧
      letters.covers left = true ∧
      (first.1.execute ⟨8, .rangeQuery left none⟩).2.response ≠
        .unavailable "outside responsibility" := by
  intro first
  have hasked : letters.covers asked = true := by decide
  have hleft : asked.covers left = true := by decide
  have hfirst : first.2.response = .range [([0x61], [0x31])] (some left) := by decide
  have hsame : first.1.installed.map Reconfigure.responsibility =
      (replica letters).installed.map Reconfigure.responsibility := by decide
  obtain ⟨-, -, htrans, -, -, hpaging⟩ := paging_stays_inside
  exact ⟨hasked, hleft, hfirst, hsame, htrans _ _ _ hasked hleft,
    hpaging _ _ _ _ _ _ _ none _ hfirst hsame⟩

/-- A range covers another exactly if it includes it and the two do not write an end in different
ways. So an engine refuses, and an active router does not submit, those operations inside the
responsibility that are range queries with an end written so, and no others. -/
theorem inside_served_iff (range : KeyRange) :
    (∀ other : KeyRange,
        range.covers other = true ↔ range.Includes other ∧ ¬ range.Overlooks other) ∧
      (∀ (e : Engine) (r : Reconfigure) (op : Operation),
        e.installed = some r → r.responsibility = range → e.executed.contains op.id = false →
        range.Encloses op.target →
        ((e.execute op).2.response = .unavailable "outside responsibility" ↔
          range.Mistakes op.target)) ∧
      ∀ (r : Router) (op : Operation) (reply : ReplyTo),
        r.responsibility = some range → r.state = .active → r.pending.contains op.id = false →
        range.Encloses op.target →
        ((r.request op reply).2 = [.submit op] ↔ ¬ range.Mistakes op.target) := by
  refine ⟨fun other => KeyRange.covers_iff, ?_, ?_⟩
  · intro e r op hr hrange hnew hinside
    have hadmits : range.admits op.target = false ↔ range.Mistakes op.target := by
      rw [← Bool.not_eq_true, KeyRange.admits_iff]
      simp [hinside]
    rw [e.refuses_iff, ← hadmits, hr]
    simp [hnew, hrange]
  · intro r op reply hrange hactive hfree hinside
    rw [Router.submits_iff hactive hfree, Router.isInside, hrange, Option.any_some,
      KeyRange.admits_iff]
    simp [hinside]

open Solo in
/-- A query for some of the letters is not refused by who is responsible for all of them. -/
theorem inside_served_iff_letters :
    ∃ r, (replica letters).installed = some r ∧ r.responsibility = letters ∧
      (replica letters).executed.contains 7 = false ∧ letters.Encloses (.range asked) ∧
      ((replica letters).execute ⟨7, .rangeQuery asked none⟩).2.response ≠
        .unavailable "outside responsibility" := by
  obtain ⟨hcovers, hengine, -⟩ := inside_served_iff letters
  obtain ⟨hincludes, hwritten⟩ := (hcovers asked).1 (by decide)
  refine ⟨⟨.ofList 1 [a], 1, 0, letters⟩, by decide, rfl, by decide, hincludes, ?_⟩
  intro hrefused
  have hmistakes := (hengine (replica letters) ⟨.ofList 1 [a], 1, 0, letters⟩
    ⟨7, .rangeQuery asked none⟩ (by decide) rfl (by decide) hincludes).1 hrefused
  obtain ⟨q, hq, hoverlooks⟩ := hmistakes
  obtain rfl := Target.range.inj hq
  exact hwritten hoverlooks

open Solo in
/-- The keys from the first on are all keys, and those behind `a` are those from the next one on.
Neither is covered, and a query for all keys is refused. -/
theorem inside_refused_spelling :
    (KeyRange.fromKey []).Includes .full ∧ (KeyRange.fromKey []).covers .full = false ∧
      (KeyRange.closed [0x61, 0] [0x62]).Includes ⟨.excluded [0x61], .included [0x62]⟩ ∧
      (KeyRange.closed [0x61, 0] [0x62]).covers ⟨.excluded [0x61], .included [0x62]⟩ = false ∧
      ((replica (.fromKey [])).execute ⟨7, .rangeQuery .full none⟩).2.response =
        .unavailable "outside responsibility" ∧
      ¬ ∀ range other : KeyRange, range.Includes other → range.covers other = true := by
  have hall : (KeyRange.fromKey []).Includes .full := by
    intro k hk
    rw [KeyRange.contains_iff] at hk ⊢
    exact hk
  have hnext : (KeyRange.closed [0x61, 0] [0x62]).Includes
      ⟨.excluded [0x61], .included [0x62]⟩ := by
    intro k hk
    rw [KeyRange.contains_iff] at hk ⊢
    exact hk
  refine ⟨hall, by decide, hnext, by decide, by decide, fun hcomplete => ?_⟩
  cases hcomplete _ _ hall

end ReplicaRing
