import Mathlib.Data.List.Induction
import Mathlib.Data.List.Perm.Subperm
import Mathlib.Data.Nat.Find
import ReplicaRing.Proofs.EngineOutputs

/-!
Decisions that arrive in any order. The log decides one value for each position, and an engine may
be told of them late, early and repeatedly. It applies the values without a gap from the first
position on, each once and in the order of their positions, and holds the others. So all that it
is and says, the held values apart, is what being told of exactly those positions in their order
makes it be and say, `Engine.run_decisions`.
-/

namespace ReplicaRing

/-! ## Gaps -/

lemma exists_gap (told : List Nat) : ∃ n, n + 1 ∉ told := by
  by_contra! hall
  have hsub : List.range' 1 (told.length + 1) ⊆ told := by
    intro p hp
    obtain ⟨i, -, rfl⟩ := List.mem_range'.1 hp
    rw [Nat.add_comm, Nat.one_mul]
    exact hall i
  have hnodup : (List.range' 1 (told.length + 1)).Nodup := List.nodup_range'
  have hlength := (hnodup.subperm hsub).length_le
  rw [List.length_range'] at hlength
  omega

/-- How many positions, from the first on, are among some positions without a gap. -/
def gapFree (told : List Nat) : Nat := Nat.find (exists_gap told)

lemma gap_not_mem (told : List Nat) : gapFree told + 1 ∉ told := Nat.find_spec (exists_gap told)

lemma mem_of_le_gapFree {told : List Nat} {p : Nat} (hpos : 1 ≤ p) (hp : p ≤ gapFree told) :
    p ∈ told := by
  have hmin := Nat.find_min (exists_gap told) (m := p - 1) (by unfold gapFree at hp; omega)
  rw [not_not, Nat.sub_add_cancel hpos] at hmin
  exact hmin

/-- So many positions are the most that are there from the first on. -/
theorem le_gapFree_iff {told : List Nat} {n : Nat} :
    n ≤ gapFree told ↔ ∀ p, 1 ≤ p → p ≤ n → p ∈ told := by
  constructor
  · intro hn p hpos hp
    exact mem_of_le_gapFree hpos (Nat.le_trans hp hn)
  · intro hall
    by_contra hlt
    exact gap_not_mem told (hall _ (by omega) (by omega))

lemma gapFree_range' (n : Nat) : gapFree (List.range' 1 n) = n := by
  apply Nat.le_antisymm
  · by_contra hlt
    have hmem : n + 1 ∈ List.range' 1 n := mem_of_le_gapFree (by omega) (by omega)
    rw [List.mem_range'_1] at hmem
    omega
  · rw [le_gapFree_iff]
    intro p hpos hp
    rw [List.mem_range'_1]
    omega

lemma gapFree_mono {told more : List Nat} (h : told ⊆ more) : gapFree told ≤ gapFree more :=
  le_gapFree_iff.2 fun _ hpos hp => h (mem_of_le_gapFree hpos hp)

/-- A position that is told again, or that is none, leaves the first gap where it is. -/
lemma gapFree_skip {told : List Nat} {p : Nat} (hp : p ≤ gapFree told) :
    gapFree (told ++ [p]) = gapFree told := by
  apply Nat.le_antisymm _ (gapFree_mono (List.subset_append_left told [p]))
  rw [le_gapFree_iff]
  intro q hpos hq
  rcases List.mem_append.1 (mem_of_le_gapFree hpos hq) with hin | hin
  · exact hin
  · rw [List.mem_singleton.1 hin] at hpos ⊢
    exact mem_of_le_gapFree hpos hp

namespace Engine

variable {e : Engine} {log : Nat → LogValue}

/-! ## Values that follow each other -/

/-- The decisions of a log at some positions. -/
def decisions (log : Nat → LogValue) (positions : List Nat) : List Input :=
  positions.map fun p => .decided p (log p)

/-- The steps that apply the values of a log at some positions. -/
def applications (log : Nat → LogValue) (positions : List Nat) : List Step :=
  positions.map fun p => .value (log p)

lemma next_applications (e : Engine) (positions : List Nat) :
    (e.follow (applications log positions)).next = e.next + positions.length := by
  induction positions generalizing e with
  | nil => rfl
  | cons p positions ih =>
    show ((e.applyNext (log p)).follow (applications log positions)).next = _
    rw [ih, (e.applyNext_place (log p)).1, List.length_cons]
    omega

lemma outputAlong_withHeld (e : Engine) (held : SortedMap Nat LogValue) (positions : List Nat) :
    (e.withHeld held).outputAlong (applications log positions) =
      e.outputAlong (applications log positions) := by
  induction positions generalizing e held with
  | nil => rfl
  | cons p positions ih =>
    have hrest := ih (e.applyNext (log p)) (held.erase e.next)
    rw [← e.applyNext_withHeld] at hrest
    show (e.withHeld held).outputAt (.value (log p)) ++
      ((e.withHeld held).applyNext (log p)).outputAlong (applications log positions) = _
    rw [hrest, outputAt_withHeld]
    rfl

/-- An engine that held other values does the same with what follows, and takes the values of the
positions that it goes through off the ones it holds. -/
lemma follow_withHeld (e : Engine) (held : SortedMap Nat LogValue) (positions : List Nat) :
    ∃ held', (e.withHeld held).follow (applications log positions) =
        (e.follow (applications log positions)).withHeld held' ∧
      ∀ p, held'.get? p =
        if e.next ≤ p ∧ p < e.next + positions.length then none else held.get? p := by
  induction positions generalizing e held with
  | nil =>
    refine ⟨held, rfl, fun p => ?_⟩
    rw [if_neg (by rw [List.length_nil]; omega)]
  | cons q positions ih =>
    obtain ⟨held', hfollow, hget⟩ := ih (e.applyNext (log q)) (held.erase e.next)
    refine ⟨held', ?_, fun p => ?_⟩
    · rw [← e.applyNext_withHeld] at hfollow
      exact hfollow
    · rw [hget p, (e.applyNext_place (log q)).1, SortedMap.get?_erase, List.length_cons]
      by_cases hfirst : p = e.next
      · rw [if_neg (by omega), if_pos hfirst, if_pos (by omega)]
      · rw [if_neg hfirst]
        by_cases hin : e.next ≤ p ∧ p < e.next + (positions.length + 1)
        · rw [if_pos hin, if_pos (by omega)]
        · rw [if_neg hin, if_neg (by omega)]

/-- The values of the first positions, and those of the positions after them. -/
lemma applications_append (log : Nat → LogValue) {n m : Nat} (h : n ≤ m) :
    applications log (List.range' 1 m) =
      applications log (List.range' 1 n) ++ applications log (List.range' (n + 1) (m - n)) := by
  have hrange : List.range' 1 m = List.range' 1 n ++ List.range' (n + 1) (m - n) := by
    have happend := List.range'_append_1 (s := 1) (m := n) (n := m - n)
    rw [Nat.add_sub_cancel' h, Nat.add_comm 1 n] at happend
    exact happend.symm
  rw [hrange]
  exact List.map_append

/-! ## What is held -/

/-- Held are the values at those of the positions told that are not below a bound. -/
def HoldsFrom (log : Nat → LogValue) (told : List Nat) (bound : Nat)
    (held : SortedMap Nat LogValue) : Prop :=
  ∀ p, held.get? p = if p ∈ told ∧ bound ≤ p then some (log p) else none

namespace HoldsFrom

variable {told : List Nat} {bound : Nat} {held : SortedMap Nat LogValue}

/-- A position that is told again, or told too late, changes nothing. -/
lemma skip (h : HoldsFrom log told bound held) {p : Nat} (hp : p < bound) :
    HoldsFrom log (told ++ [p]) bound held := by
  intro q
  rw [h q]
  by_cases hq : q = p
  · rw [if_neg (by omega), if_neg (by omega)]
  · simp [hq]

lemma insert (h : HoldsFrom log told bound held) {p : Nat} (hp : bound ≤ p) :
    HoldsFrom log (told ++ [p]) bound (held.insert p (log p)) := by
  intro q
  rw [SortedMap.get?_insert, h q]
  by_cases hq : q = p
  · rw [hq, if_pos rfl, if_pos ⟨by simp, hp⟩]
  · simp [hq]

lemma erase (h : HoldsFrom log told bound held) :
    HoldsFrom log told (bound + 1) (held.erase bound) := by
  intro q
  rw [SortedMap.get?_erase, h q]
  by_cases hq : q = bound
  · rw [if_pos hq, if_neg (by omega)]
  · rw [if_neg hq]
    have hbound : bound ≤ q ↔ bound + 1 ≤ q := by omega
    simp only [hbound]

/-- The values that are due are those up to the first gap, if the fuel reaches for all values that
are held. -/
lemma heldFrom_eq (h : HoldsFrom log told bound held) {fuel : Nat} (hfuel : held.size ≤ fuel)
    (hpos : 1 ≤ bound) (hbound : bound ≤ gapFree told + 1) :
    heldFrom fuel bound held = (List.range' bound (gapFree told + 1 - bound)).map log := by
  induction fuel generalizing bound held with
  | zero =>
    -- nothing is held, so the bound is the gap
    have hempty : held.get? bound = none := by
      have hnil : held.entries = [] := List.eq_nil_of_length_eq_zero (Nat.le_zero.1 hfuel)
      unfold SortedMap.get?
      rw [hnil]
      rfl
    have hgap : bound ∉ told := fun hin => by
      rw [h bound, if_pos ⟨hin, Nat.le_refl _⟩] at hempty
      cases hempty
    have heq : bound = gapFree told + 1 := by
      by_contra hne
      exact hgap (mem_of_le_gapFree hpos (by omega))
    rw [heq, Nat.sub_self]
    rfl
  | succ fuel ih =>
    unfold heldFrom
    by_cases hin : bound ∈ told
    · have hget : held.get? bound = some (log bound) := by
        rw [h bound, if_pos ⟨hin, Nat.le_refl _⟩]
      have hle : bound ≤ gapFree told := by
        by_contra hlt
        have heq : bound = gapFree told + 1 := by omega
        exact gap_not_mem told (heq ▸ hin)
      -- taking the value off leaves fewer to go through
      have hsize : (held.erase bound).size < held.size :=
        List.length_filter_lt_length_iff_exists.2
          ⟨_, SortedMap.get?_eq_some_iff.1 hget, by simp⟩
      have hcount : gapFree told + 1 - bound = (gapFree told + 1 - (bound + 1)) + 1 := by omega
      rw [hget, hcount, List.range'_succ, List.map_cons]
      simp only
      rw [ih h.erase (by omega) (by omega) (by omega)]
    · have hget : held.get? bound = none := by
        rw [h bound, if_neg (fun hand => hin hand.1)]
      have heq : bound = gapFree told + 1 := by
        by_contra hne
        exact hin (mem_of_le_gapFree hpos (by omega))
      rw [hget, heq, Nat.sub_self]
      rfl

end HoldsFrom

/-! ## Decisions in any order -/

/-- A decision at an applied position is skipped. Any other is held until its turn, which comes at
once if it closes the first gap: then the values up to the next gap are applied. -/
theorem receive_decided {told : List Nat} {held : SortedMap Nat LogValue}
    (hnext : e.next = gapFree told + 1) (hholds : HoldsFrom log told (gapFree told + 1) held)
    (p : Nat) :
    let applied := applications log
      (List.range' (gapFree told + 1) (gapFree (told ++ [p]) - gapFree told))
    ∃ held',
      (e.withHeld held).receive (.decided p (log p)) = (e.follow applied).withHeld held' ∧
        (e.withHeld held).outputOf (.decided p (log p)) = e.outputAlong applied ∧
        HoldsFrom log (told ++ [p]) (gapFree (told ++ [p]) + 1) held' := by
  have hsteps : (e.withHeld held).stepsOf (.decided p (log p)) =
      if p < gapFree told + 1 then []
      else .hold p (log p) ::
        (heldFrom (held.insert p (log p)).size (gapFree told + 1) (held.insert p (log p))).map
          .value := by
    rw [← hnext]
    show (if p < e.next then [] else _ :: List.map _ (if p < e.next then [] else _)) = _
    by_cases hold : p < e.next
    · rw [if_pos hold, if_pos hold]
    · rw [if_neg hold, if_neg hold, if_neg hold]
      rfl
  have hstate : (e.withHeld held).receive (.decided p (log p)) = _ :=
    (e.withHeld held).decide_eq p (log p)
  have hout : (e.withHeld held).outputOf (.decided p (log p)) = _ :=
    (e.withHeld held).decide_output p (log p)
  simp only [hstate, hout, hsteps]
  by_cases hold : p < gapFree told + 1
  · rw [if_pos hold, gapFree_skip (by omega), Nat.sub_self]
    exact ⟨held, rfl, rfl, hholds.skip hold⟩
  · have hinserted := hholds.insert (p := p) (by omega)
    have hmono : gapFree told ≤ gapFree (told ++ [p]) :=
      gapFree_mono (List.subset_append_left told [p])
    have hdue := hinserted.heldFrom_eq (Nat.le_refl _) (by omega) (by omega)
    rw [Nat.add_sub_add_right] at hdue
    rw [if_neg hold, hdue, List.map_map]
    obtain ⟨held', hfollow, hget⟩ := @follow_withHeld log e (held.insert p (log p))
      (List.range' (gapFree told + 1) (gapFree (told ++ [p]) - gapFree told))
    refine ⟨held', hfollow, outputAlong_withHeld e (held.insert p (log p)) _, fun q => ?_⟩
    rw [hget q, hinserted q, hnext, List.length_range']
    by_cases hq : gapFree told + 1 ≤ q ∧
        q < gapFree told + 1 + (gapFree (told ++ [p]) - gapFree told)
    · rw [if_pos hq, if_neg (by omega)]
    · rw [if_neg hq]
      by_cases hin : q ∈ told ++ [p] ∧ gapFree (told ++ [p]) + 1 ≤ q
      · rw [if_pos hin, if_pos ⟨hin.1, by omega⟩]
      · rw [if_neg hin, if_neg (fun hand => hin ⟨hand.1, by omega⟩)]

/-- An engine that starts at the first position and holds nothing applies, of what it is told, the
values without a gap, and holds the others. -/
theorem run_eq_follow (hnext : e.next = 1) (hheld : e.held = ∅) (log : Nat → LogValue)
    (told : List Nat) :
    let applied := applications log (List.range' 1 (gapFree told))
    ∃ held, e.run (decisions log told) = (e.follow applied).withHeld held ∧
      e.outputOfRun (decisions log told) = e.outputAlong applied ∧
      HoldsFrom log told (gapFree told + 1) held := by
  induction told using List.reverseRecOn with
  | nil =>
    have hzero : gapFree [] = 0 := gapFree_range' 0
    simp only [hzero]
    exact ⟨e.held, rfl, rfl, fun p => by rw [hheld]; rfl⟩
  | append_singleton told p ih =>
    obtain ⟨held, hrun, hout, hholds⟩ := ih
    set front := applications log (List.range' 1 (gapFree told)) with hfront
    have hplace : (e.follow front).next = gapFree told + 1 := by
      rw [hfront, next_applications, hnext, List.length_range', Nat.add_comm]
    obtain ⟨held', hstep, hsaid, hholds'⟩ := receive_decided hplace hholds p
    have hmono : gapFree told ≤ gapFree (told ++ [p]) :=
      gapFree_mono (List.subset_append_left told [p])
    have hsplit : decisions log (told ++ [p]) = decisions log told ++ [.decided p (log p)] :=
      List.map_append
    have hlast : e.run (decisions log told ++ [.decided p (log p)]) =
        (e.run (decisions log told)).receive (.decided p (log p)) := List.foldl_append
    refine ⟨held', ?_, ?_, hholds'⟩
    · rw [hsplit, hlast, hrun, hstep, applications_append log hmono, follow_append]
    · have hone : (e.run (decisions log told)).outputOfRun [.decided p (log p)] =
          (e.run (decisions log told)).outputOf (.decided p (log p)) := List.append_nil _
      rw [hsplit, outputOfRun_append, hone, hout, hrun, hsaid, applications_append log hmono,
        outputAlong_append]

/-- Decisions of one log in any order, with any repetitions, make an engine what the positions up
to the first gap make it, told once each and in their order, and let it say the same; but it also
holds the values of the positions above the gap. -/
theorem run_decisions (e : Engine) (hnext : e.next = 1) (hheld : e.held = ∅)
    (log : Nat → LogValue) (told : List Nat) :
    (∀ n, n ≤ gapFree told ↔ ∀ p, 1 ≤ p → p ≤ n → p ∈ told) ∧
      e.outputOfRun (decisions log told) =
        e.outputOfRun (decisions log (List.range' 1 (gapFree told))) ∧
      ∃ held, e.run (decisions log told) =
          { e.run (decisions log (List.range' 1 (gapFree told))) with held } ∧
        ∀ p, held.get? p = if p ∈ told ∧ gapFree told < p then some (log p) else none := by
  obtain ⟨held, hrun, hout, hholds⟩ := run_eq_follow hnext hheld log told
  obtain ⟨held', hrun', hout', -⟩ :=
    run_eq_follow hnext hheld log (List.range' 1 (gapFree told))
  rw [gapFree_range'] at hrun' hout'
  refine ⟨fun n => le_gapFree_iff, hout.trans hout'.symm, held, ?_, hholds⟩
  rw [hrun, hrun']
  rfl

/-- A log that puts the number of each position under one key. -/
def counting (p : Nat) : LogValue := .operation ⟨UInt64.ofNat p, .put [0x61] [UInt8.ofNat p]⟩

/-- A replica that is alone in its view. -/
def alone : Engine :=
  (start ⟨"a", 1, none⟩ {} (.ofList [])).run
    [.bootstrap ⟨.ofList 1 [⟨"a", 1, none⟩], 1, 0, .full⟩]

/-- The second position is told before the first and again after it, and the third is missing. -/
theorem run_decisions_late :
    gapFree [2, 4, 1, 2] = 2 ∧
      alone.outputOfRun (decisions counting [2, 4, 1, 2]) =
        alone.outputOfRun (decisions counting [1, 2]) ∧
      (alone.run (decisions counting [2, 4, 1, 2])).store =
        (alone.run (decisions counting [1, 2])).store ∧
      (alone.run (decisions counting [1, 2])).store.get [0x61] = .ok (some [2]) ∧
      (alone.run (decisions counting [2, 4, 1, 2])).held.get? 4 = some (counting 4) := by
  have hgap : gapFree [2, 4, 1, 2] = 2 := (Nat.find_eq_iff _).2 (by decide)
  obtain ⟨-, hout, held, hrun, hholds⟩ := run_decisions alone rfl rfl counting [2, 4, 1, 2]
  rw [hgap] at hout hrun hholds
  refine ⟨hgap, hout, ?_, by decide +kernel, ?_⟩
  · rw [hrun]
    rfl
  · rw [hrun]
    exact hholds 4

end Engine

end ReplicaRing
