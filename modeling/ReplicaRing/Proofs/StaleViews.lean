import ReplicaRing.Proofs.OracleLedger

/-!
Views that come late. A view whose number is not above that of the view there is leaves an oracle
as it is, unless it is empty: an empty view is taken whatever its number, and the oracle is then
without a view, so that any other is new to it again, `Oracle.install_stale_iff`. Hence the view of
an oracle does not go back along a run exactly if no empty view is installed in it,
`Oracle.never_back_iff`.
-/

namespace ReplicaRing

namespace Oracle

/-- Installing a view changes nothing of an oracle, and nothing is put out: no subscription is made
or ended, no event is emitted, and no leader is announced. -/
structure Unmoved (o : Oracle) (v : View) : Prop where
  view : (o.install v).1.view = o.view
  candidates : (o.install v).1.candidates = o.candidates
  suspected : (o.install v).1.suspected = o.suspected
  subscriptions : (o.install v).1.subscriptions = o.subscriptions
  leader : (o.install v).1.leader = o.leader
  watched : (o.install v).1.watched = o.watched
  quiet : (o.install v).2 = []

/-- An empty view is installed. -/
def Happening.clears : Happening → Bool
  | .input (.install view) => view.isEmpty
  | .input (.liveness _) | .draw _ => false

variable {o : Oracle} {view : View}

/-! ## Single views -/

lemma install_of_stale {current : View} (hview : o.view = some current)
    (hmembers : view.isEmpty = false) (hstale : view.id ≤ current.id) : o.install view = (o, []) := by
  unfold install
  rw [if_neg (by simp [hmembers]), if_pos (by simp [hview, hstale])]

/-- A view that is not newer moves an oracle exactly if it is empty. -/
lemma install_stale_iff {current : View} (hview : o.view = some current)
    (hstale : view.id ≤ current.id) : o.Unmoved view ↔ view.isEmpty = false := by
  constructor
  · intro h
    by_contra hempty
    have hcleared := h.view
    rw [view_install, if_pos (by simpa using hempty), hview] at hcleared
    cases hcleared
  · intro hmembers
    have hinstall := install_of_stale hview hmembers hstale
    constructor
    all_goals rw [hinstall]

/-! ## Runs -/

/-- What happens to an oracle leaves its view, or brings a newer one, or clears it. -/
lemma view_meet {current : View} (hview : o.view = some current) (x : Happening) :
    (x.clears = true → (o.meet x).1.view = none) ∧
      (x.clears = false → ∃ later, (o.meet x).1.view = some later ∧ current.id ≤ later.id) := by
  cases x with
  | draw ids => exact ⟨fun h => (by cases h), fun _ => ⟨current, hview, UInt64.le_refl _⟩⟩
  | input input =>
    cases input with
    | liveness p =>
      exact ⟨fun h => (by cases h),
        fun _ => ⟨current, (o.view_liveness p).trans hview, UInt64.le_refl _⟩⟩
    | install view =>
      have hinstall : (o.meet (.input (.install view))).1.view = _ := o.view_install view
      rw [hinstall, hview]
      constructor
      · intro hempty
        exact if_pos hempty
      · intro hmembers
        have hmembers : view.isEmpty = false := hmembers
        rw [if_neg (by simp [hmembers])]
        by_cases hstale : view.id ≤ current.id
        · exact ⟨current, if_pos (by simp [hstale]), UInt64.le_refl _⟩
        · refine ⟨view, if_neg (by simp [hstale]), ?_⟩
          exact UInt64.le_of_lt (UInt64.not_le.1 hstale)

/-- As long as no empty view is installed, the view of an oracle does not go back. -/
lemma view_course {current : View} (hview : o.view = some current) {happenings : List Happening}
    (hmembers : ∀ x ∈ happenings, x.clears = false) :
    ∃ later, (o.course happenings).1.view = some later ∧ current.id ≤ later.id := by
  induction happenings generalizing o current with
  | nil => exact ⟨current, hview, UInt64.le_refl _⟩
  | cons x rest ih =>
    obtain ⟨next, hnext, hle⟩ := (view_meet hview x).2 (hmembers x List.mem_cons_self)
    obtain ⟨later, hlater, hle'⟩ := ih hnext fun y hy => hmembers y (List.mem_cons_of_mem x hy)
    exact ⟨later, hlater, UInt64.le_trans hle hle'⟩

/-- And an empty view leaves an oracle without any. -/
lemma not_clears_of_view {current : View} (hview : o.view = some current)
    {happenings : List Happening}
    (hkept : ∀ front, front <+: happenings → ∃ later, (o.course front).1.view = some later) :
    ∀ x ∈ happenings, x.clears = false := by
  induction happenings generalizing o current with
  | nil => exact fun x hx => absurd hx List.not_mem_nil
  | cons x rest ih =>
    obtain ⟨next, hnext⟩ := hkept [x] (List.cons_prefix_cons.2 ⟨rfl, List.nil_prefix⟩)
    have hfirst : x.clears = false := by
      by_contra hclears
      have hnone := (view_meet hview x).1 (by simpa using hclears)
      cases hnone.symm.trans hnext
    intro y hy
    rcases List.mem_cons.1 hy with rfl | hy
    · exact hfirst
    · refine ih hnext (fun front hfront => ?_) y hy
      exact hkept (x :: front) (List.cons_prefix_cons.2 ⟨rfl, hfront⟩)

/-- In a view, an oracle is unmoved by a view that is not newer exactly if that view is not empty.
And along what happens to it afterwards it stays in that view or a newer one at every moment exactly
if no empty view is installed. -/
theorem never_back_iff (hview : o.view = some view) :
    (∀ stale : View, stale.id ≤ view.id → (o.Unmoved stale ↔ stale.isEmpty = false)) ∧
      ∀ happenings : List Happening,
        (∀ front, front <+: happenings →
          ∃ later, (o.course front).1.view = some later ∧ view.id ≤ later.id) ↔
        ∀ x ∈ happenings, x.clears = false := by
  refine ⟨fun stale hstale => install_stale_iff hview hstale, fun happenings => ?_⟩
  constructor
  · intro hkept
    refine not_clears_of_view hview fun front hfront => ?_
    obtain ⟨later, hlater, -⟩ := hkept front hfront
    exact ⟨later, hlater⟩
  · intro hmembers front hfront
    exact view_course hview fun x hx => hmembers x (hfront.subset hx)

namespace LateView

def a : NodeId := ⟨"a", 1, none⟩

def b : NodeId := ⟨"b", 1, none⟩

/-- The oracle of the second of two nodes in a view. -/
def settled : Oracle := ((start b (.ofSeed 0 0)).install (.ofList 5 [a, b])).1

end LateView

open LateView in
/-- An older view without the oracle's own node is ignored, whatever else happens. -/
theorem never_back_iff_older :
    settled.view = some (.ofList 5 [a, b]) ∧ (View.ofList 4 [b]).id ≤ (View.ofList 5 [a, b]).id ∧
      settled.Unmoved (.ofList 4 [b]) ∧
      ∀ front, front <+: [.input (.install (.ofList 4 [b])), .input (.liveness (.suspect a 1)),
          .input (.install (.ofList 6 [b]))] →
        ∃ later, (settled.course front).1.view = some later ∧
          (View.ofList 5 [a, b]).id ≤ later.id := by
  have hview : settled.view = some (.ofList 5 [a, b]) := by decide
  obtain ⟨hunmoved, hkept⟩ := never_back_iff hview
  exact ⟨hview, by decide, (hunmoved _ (by decide)).2 (by decide), (hkept _).2 (by decide)⟩

open LateView in
/-- An empty view that is older ends the subscription and takes the leader away, and then a view
that is older still is taken. -/
theorem back_by_empty :
    settled.view = some (.ofList 5 [a, b]) ∧ (View.ofList 4 []).id ≤ (View.ofList 5 [a, b]).id ∧
      ¬ settled.Unmoved (.ofList 4 []) ∧
      settled.leader = some a ∧ (settled.install (.ofList 4 [])).1.leader = none ∧
      (settled.install (.ofList 4 [])).2 = [.unsubscribe 1, .announce none] ∧
      (settled.course [.input (.install (.ofList 4 [])),
        .input (.install (.ofList 3 [b]))]).1.view = some (.ofList 3 [b]) := by
  refine ⟨by decide, by decide, fun h => ?_, by decide, by decide, by decide, by decide⟩
  exact absurd h.view (by decide)

end Oracle

end ReplicaRing
