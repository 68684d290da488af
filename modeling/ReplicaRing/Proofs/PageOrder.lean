import ReplicaRing.Proofs.ReceiverSteps

/-!
What the order of pages is worth. A sender cuts the entries of a range into pages; a receiver
writes of each page that reaches it what lies above its last key. If the final page is taken, then
everything was written exactly if no page was written from before all pages in front of it had been
taken, which is `InOrder`: an item that is passed over lies below the last key from then on, and
no repetition of its page brings it back.
-/

namespace ReplicaRing

/-! ## Cutting a range into pages -/

/-- Pages with their final flags, cut one after the other off the front of some items, and what is
left over. Only a page of nothing is empty. -/
inductive Paged (all : List StoreItem) : List (List StoreItem × Bool) → List StoreItem → Prop
  | start : Paged all [] all
  | next {pages : List (List StoreItem × Bool)} {p rest : List StoreItem} :
      Paged all pages (p ++ rest) → (pages ≠ [] → p ++ rest ≠ []) → (p = [] → rest = []) →
      Paged all (pages ++ [(p, rest.isEmpty)]) rest

namespace Paged

variable {all rest : List StoreItem} {pages pre post : List (List StoreItem × Bool)}
  {x y : List StoreItem × Bool}

/-- The pages and what is left over make up the whole. -/
lemma flatten (h : Paged all pages rest) : all = pages.flatMap Prod.fst ++ rest := by
  induction h with
  | start => rfl
  | next _ _ _ ih => rw [ih, List.flatMap_append, List.flatMap_singleton, List.append_assoc]

/-- The page without items comes alone, of a range that holds nothing. -/
lemma eq_nil (h : Paged all pages rest) (hx : x ∈ pages) (hnil : x.1 = []) : all = [] := by
  induction h with
  | start => cases hx
  | @next pages p rest h hmore hempty ih =>
    rcases List.mem_append.1 hx with hx | hx
    · exact ih hx
    · rw [List.mem_singleton.1 hx] at hnil
      replace hnil : p = [] := hnil
      have hrest := hempty hnil
      have hpages : pages = [] := by
        by_contra hne
        exact hmore hne (by rw [hnil, hrest]; rfl)
      rw [hpages, hnil, hrest] at h
      exact h.flatten

/-- The final page is the last, and leaves nothing over. -/
lemma eq_concat (h : Paged all pages rest) (hx : x ∈ pages) (hfinal : x.2 = true) :
    rest = [] ∧ ∃ init, pages = init ++ [x] := by
  induction h with
  | start => cases hx
  | @next pages p rest h hmore _ ih =>
    rcases List.mem_append.1 hx with hx | hx
    · -- a page after the final one would need something to hold
      exact absurd (ih hx).1 (hmore (List.ne_nil_of_mem hx))
    · rw [List.mem_singleton.1 hx] at hfinal ⊢
      exact ⟨List.isEmpty_iff.1 hfinal, pages, rfl⟩

lemma mem_all (h : Paged all pages rest) (hx : x ∈ pages) {i : StoreItem} (hi : i ∈ x.1) :
    i ∈ all := by
  rw [h.flatten]
  exact List.mem_append.2 (.inl (List.mem_flatMap.2 ⟨x, hx, hi⟩))

lemma exists_page (h : Paged all pages []) {i : StoreItem} (hi : i ∈ all) :
    ∃ x ∈ pages, i ∈ x.1 := by
  rw [h.flatten, List.append_nil] at hi
  exact List.mem_flatMap.1 hi

/-- A page is a stretch of the whole. -/
lemma sublist_page (h : Paged all pages rest) (hx : x ∈ pages) : x.1.Sublist all := by
  obtain ⟨pre, post, hsplit⟩ := List.append_of_mem hx
  rw [h.flatten, hsplit, List.flatMap_append, List.flatMap_cons]
  exact ((List.sublist_append_left _ _).trans (List.sublist_append_right _ _)).trans
    (List.sublist_append_left _ _)

section

variable (h : Paged all pages rest) (hasc : Ascending all)

include h hasc

/-- What stands on an earlier page has the lower key. -/
lemma lt_of_before (hsplit : pages = pre ++ x :: post) (hy : y ∈ pre) {i j : StoreItem}
    (hi : i ∈ y.1) (hj : j ∈ x.1) : compare i.key j.key = .lt := by
  have hall : all = pre.flatMap Prod.fst ++ (x.1 ++ post.flatMap Prod.fst ++ rest) := by
    rw [h.flatten, hsplit, List.flatMap_append, List.flatMap_cons]
    simp only [List.append_assoc]
  rw [hall] at hasc
  refine hasc.append.2.2 i (List.mem_flatMap.2 ⟨y, hy, hi⟩) j ?_
  simp [hj]

/-- What stands on a later page has the higher key. -/
lemma lt_of_behind (hsplit : pages = pre ++ x :: post) (hy : y ∈ post) {i j : StoreItem}
    (hi : i ∈ x.1) (hj : j ∈ y.1) : compare i.key j.key = .lt := by
  obtain ⟨front, back, hpost⟩ := List.append_of_mem hy
  have hbehind : pages = (pre ++ x :: front) ++ y :: back := by
    rw [hsplit, hpost]
    simp
  exact h.lt_of_before hasc hbehind (by simp) hi hj

lemma ascending_page (hx : x ∈ pages) : Ascending x.1 := hasc.sublist (h.sublist_page hx)

/-- No item stands on two pages. -/
lemma eq_of_mem (hx : x ∈ pages) (hy : y ∈ pages) {i : StoreItem} (hix : i ∈ x.1)
    (hiy : i ∈ y.1) : x = y := by
  obtain ⟨pre, post, hsplit⟩ := List.append_of_mem hx
  have hirrefl : ¬ compare i.key i.key = .lt := by simp
  rw [hsplit, List.mem_append, List.mem_cons] at hy
  rcases hy with hy | rfl | hy
  · exact absurd (h.lt_of_before hasc hsplit hy hiy hix) hirrefl
  · rfl
  · exact absurd (h.lt_of_behind hasc hsplit hy hix hiy) hirrefl

/-- No page comes twice. -/
lemma not_mem_init (hsplit : pages = pre ++ [x]) : x ∉ pre := by
  intro hx
  have hne : x.1 ≠ [] := by
    intro hnil
    have hall := h.eq_nil (hsplit ▸ List.mem_append.2 (.inl hx)) hnil
    cases h with
    | start => simp at hsplit
    | @next pages' p rest h' hmore _ =>
      obtain ⟨rfl, -⟩ := List.append_inj' hsplit rfl
      have hflat := h'.flatten
      rw [hall] at hflat
      exact hmore (List.ne_nil_of_mem hx) (List.append_eq_nil_iff.1 hflat.symm).2
  obtain ⟨i, hi⟩ := List.exists_mem_of_ne_nil _ hne
  have hlt := h.lt_of_before hasc hsplit hx hi hi
  simp at hlt

end

end Paged

/-! ## Receiving pages -/

namespace Reception

/-- What a row of receptions wrote, in order. -/
def allWritten (rs : List Reception) : List StoreItem := rs.flatMap written

/-- The last key that a row of receptions wrote. -/
def lastWritten (rs : List Reception) : Option Key := ReceiverSession.lastAfter none (allWritten rs)

/-- No item is written from a page before every page sent in front of it was acknowledged. -/
def InOrder (frames : List Message) (rs : List Reception) : Prop :=
  ∀ earlier r later, rs = earlier ++ r :: later → r.written ≠ [] →
    ∀ frame ∈ frames.takeWhile (· != r.frame), ∃ r' ∈ earlier,
      r'.frame = frame ∧ r'.acknowledged = true

/-- Whatever lies at or below the last key was written. -/
def Covered (all : List StoreItem) (rs : List Reception) : Prop :=
  ∀ i ∈ all, ReceiverSession.above (lastWritten rs) i.key = false → i ∈ allWritten rs

/-- Receptions of some pages: each writes what its page holds above the last key written before,
or a front part of that, and acknowledges in the first case. -/
inductive Log (frame : List StoreItem × Bool → Message) (pages : List (List StoreItem × Bool)) :
    List Reception → Prop
  | nil : Log frame pages []
  | snoc {rs : List Reception} {r : Reception} {x : List StoreItem × Bool} :
      Log frame pages rs → x ∈ pages → r.frame = frame x →
      r.written <+: x.1.filter (fun i => ReceiverSession.above (lastWritten rs) i.key) →
      (r.acknowledged = true ↔
        r.written = x.1.filter fun i => ReceiverSession.above (lastWritten rs) i.key) →
      Log frame pages (rs ++ [r])

variable {frame : List StoreItem × Bool → Message} {all : List StoreItem}
  {rest : List StoreItem} {pages : List (List StoreItem × Bool)} {rs : List Reception}
  {r : Reception}

@[simp] lemma allWritten_append (rs rs' : List Reception) :
    allWritten (rs ++ rs') = allWritten rs ++ allWritten rs' := List.flatMap_append

@[simp] lemma allWritten_singleton (r : Reception) : allWritten [r] = r.written :=
  List.flatMap_singleton _ _

/-- The last key moves to the last item that a further page writes. -/
lemma lastWritten_snoc (rs : List Reception) (r : Reception) :
    lastWritten (rs ++ [r]) = ReceiverSession.lastAfter (lastWritten rs) r.written := by
  unfold lastWritten ReceiverSession.lastAfter
  rw [allWritten_append, allWritten_singleton, List.getLast?_append]
  cases r.written.getLast? with
  | none => simp
  | some i => simp

lemma lastWritten_eq (rs : List Reception) :
    lastWritten rs = (allWritten rs).getLast?.map StoreItem.key := by
  unfold lastWritten ReceiverSession.lastAfter
  exact Option.or_none

/-- The last key bounds what was written. -/
lemma isLE_lastWritten (hasc : Ascending (allWritten rs)) {i : StoreItem}
    (hi : i ∈ allWritten rs) : ∃ l, lastWritten rs = some l ∧ (compare i.key l).isLE = true := by
  have hsome : (allWritten rs).getLast?.map StoreItem.key ≠ none := by
    rw [Ne, Option.map_eq_none_iff, List.getLast?_eq_none_iff]
    exact List.ne_nil_of_mem hi
  obtain ⟨l, hl⟩ := Option.ne_none_iff_exists'.1 hsome
  exact ⟨l, (lastWritten_eq rs).trans hl, hasc.isLE_last hl hi⟩

namespace Log

/-- More pages may have been sent than were received. -/
lemma mono {pages' : List (List StoreItem × Bool)} (h : Log frame pages rs)
    (hsub : pages ⊆ pages') : Log frame pages' rs := by
  induction h with
  | nil => exact .nil
  | snoc _ hx hframe hfront hack ih => exact ih.snoc (hsub hx) hframe hfront hack

/-- What each single reception is. -/
lemma split (h : Log frame pages rs) {earlier later : List Reception}
    (hsplit : rs = earlier ++ r :: later) : ∃ x ∈ pages, r.frame = frame x ∧
      r.written <+: x.1.filter (fun i => ReceiverSession.above (lastWritten earlier) i.key) ∧
      (r.acknowledged = true ↔
        r.written = x.1.filter fun i => ReceiverSession.above (lastWritten earlier) i.key) := by
  induction h generalizing later with
  | nil => simp at hsplit
  | @snoc rs r' x _ hx hframe hfront hack ih =>
    rcases List.eq_nil_or_concat later with rfl | ⟨init, last, rfl⟩
    · obtain ⟨rfl, hr⟩ := List.append_inj' hsplit rfl
      obtain rfl : r' = r := by simpa using hr
      exact ⟨x, hx, hframe, hfront, hack⟩
    · have hassoc : rs ++ [r'] = (earlier ++ r :: init) ++ [last] := by simpa using hsplit
      exact ih (List.append_inj' hassoc rfl).1

/-- Only items of the range are written. -/
lemma mem_all (h : Log frame pages rs) (hpaged : Paged all pages rest) {i : StoreItem}
    (hi : i ∈ allWritten rs) : i ∈ all := by
  obtain ⟨r, hr, hir⟩ := List.mem_flatMap.1 hi
  obtain ⟨earlier, later, hsplit⟩ := List.append_of_mem hr
  obtain ⟨x, hx, -, hfront, -⟩ := h.split hsplit
  exact hpaged.mem_all hx (List.mem_filter.1 (hfront.subset hir)).1

/-- Items are written in key order. -/
lemma ascending (h : Log frame pages rs) (hpaged : Paged all pages rest) (hasc : Ascending all) :
    Ascending (allWritten rs) := by
  induction h with
  | nil => exact List.Pairwise.nil
  | @snoc rs r x _ hx _ hfront _ ih =>
    rw [allWritten_append, allWritten_singleton]
    refine ReceiverSession.ascending_append ih ?_ fun j hj => ?_
    · exact (hpaged.ascending_page hasc hx).sublist
        (hfront.sublist.trans List.filter_sublist)
    · rw [← lastWritten_eq]
      exact (List.mem_filter.1 (hfront.subset hj)).2

end Log

/-! ## Order and completeness -/

/-- Of a row in key order a front part that reaches an upper bound is the whole. -/
lemma eq_of_front_of_bound {l l' : List StoreItem} (hasc : Ascending l) (hfront : l' <+: l)
    {z : StoreItem} (hz : z ∈ l') (hbound : ∀ i ∈ l, (compare i.key z.key).isLE = true) :
    l' = l := by
  obtain ⟨t, rfl⟩ := hfront
  cases t with
  | nil => rw [List.append_nil]
  | cons u t =>
    have hlt := hasc.append.2.2 z hz u (by simp)
    exact absurd (hbound u (by simp)) (Std.OrientedCmp.not_isLE_of_lt hlt)

/-- A front part of a row in key order holds what does not lie above one of its items. -/
lemma mem_front_of_not_lt {l l' : List StoreItem} (hasc : Ascending l) (hfront : l' <+: l)
    {w i : StoreItem} (hw : w ∈ l') (hi : i ∈ l) (hwi : ¬ compare w.key i.key = .lt) : i ∈ l' := by
  obtain ⟨t, rfl⟩ := hfront
  rcases List.mem_append.1 hi with h | h
  · exact h
  · exact absurd (hasc.append.2.2 w hw i h) hwi

/-- The reception that wrote the last item of a page took that page, and all of it. -/
lemma Log.acknowledged_of_last (hlog : Log frame pages rs) (hpaged : Paged all pages rest)
    (hasc : Ascending all) {earlier later : List Reception} (hsplit : rs = earlier ++ later)
    {y : List StoreItem × Bool} (hy : y ∈ pages) {z : StoreItem} (hz : z ∈ y.1)
    (hbound : ∀ i ∈ y.1, (compare i.key z.key).isLE = true) (hwritten : z ∈ allWritten earlier) :
    ∃ r ∈ earlier, r.frame = frame y ∧ r.acknowledged = true := by
  obtain ⟨r, hr, hzr⟩ := List.mem_flatMap.1 hwritten
  obtain ⟨front, back, hearlier⟩ := List.append_of_mem hr
  obtain ⟨y', hy', hry', hfront, hack⟩ := hlog.split
    (show rs = front ++ r :: (back ++ later) by rw [hsplit, hearlier]; simp)
  have hzy' : z ∈ y'.1 := (List.mem_filter.1 (hfront.subset hzr)).1
  obtain rfl := hpaged.eq_of_mem hasc hy' hy hzy' hz
  refine ⟨r, hr, hry', hack.2 (eq_of_front_of_bound ?_ hfront hzr ?_)⟩
  · exact (hpaged.ascending_page hasc hy).sublist List.filter_sublist
  · exact fun i hi => hbound i (List.mem_filter.1 hi).1

section

variable (hframe : ∀ x ∈ pages, ∀ y ∈ pages, frame x = frame y → x = y)

include hframe

/-- The frames in front of a frame are those of the pages in front of its page. -/
lemma takeWhile_frames {x : List StoreItem × Bool} {pre post : List (List StoreItem × Bool)}
    (hsplit : pages = pre ++ x :: post) (hx : x ∉ pre) :
    (pages.map frame).takeWhile (· != frame x) = pre.map frame := by
  have hpre : ∀ f ∈ pre.map frame, (f != frame x) = true := by
    intro f hf
    obtain ⟨y, hy, rfl⟩ := List.mem_map.1 hf
    rw [bne_iff_ne]
    intro heq
    have : y = x := hframe y (by rw [hsplit]; simp [hy]) x (by rw [hsplit]; simp) heq
    exact hx (this ▸ hy)
  rw [hsplit, List.map_append, List.map_cons, List.takeWhile_append_of_pos hpre]
  simp

/-- If everything was written, no page was written from too early: what it had passed over would
be missing. -/
lemma inOrder_of_all (hlog : Log frame pages rs) (hpaged : Paged all pages rest)
    (hasc : Ascending all) (hall : ∀ i ∈ all, i ∈ allWritten rs) :
    InOrder (pages.map frame) rs := by
  intro earlier r later hsplit hne f hf
  obtain ⟨x, hx, hrx, hfront, -⟩ := hlog.split hsplit
  obtain ⟨pre, post, hpages, hpre⟩ := List.eq_append_cons_of_mem hx
  rw [hrx, takeWhile_frames hframe hpages hpre] at hf
  obtain ⟨y, hy, rfl⟩ := List.mem_map.1 hf
  have hypages : y ∈ pages := by rw [hpages]; simp [hy]
  obtain ⟨w, hw⟩ := List.exists_mem_of_ne_nil _ hne
  have hwx : w ∈ x.1 := (List.mem_filter.1 (hfront.subset hw)).1
  have hyne : y.1 ≠ [] := by
    intro hnil
    have hmem := hpaged.mem_all hx hwx
    rw [hpaged.eq_nil hypages hnil] at hmem
    cases hmem
  -- the last item of the earlier page was written, and before anything of the later page
  have hz := List.getLast_mem hyne
  have hbound : ∀ i ∈ y.1, (compare i.key (y.1.getLast hyne).key).isLE = true := fun i hi =>
    (hpaged.ascending_page hasc hypages).isLE_last
      (by rw [List.getLast?_eq_some_getLast hyne]; rfl) hi
  generalize y.1.getLast hyne = z at hz hbound
  have hzw : compare z.key w.key = .lt := hpaged.lt_of_before hasc hpages hy hz hwx
  have hwritten := hall z (hpaged.mem_all hypages hz)
  have hrow := hlog.ascending hpaged hasc
  rw [hsplit, allWritten_append] at hwritten hrow
  have hcons : allWritten (r :: later) = r.written ++ allWritten later := List.flatMap_cons
  rw [hcons] at hwritten hrow
  have hzearlier : z ∈ allWritten earlier := by
    rcases List.mem_append.1 hwritten with h | h
    · exact h
    · exfalso
      rcases List.mem_append.1 h with h | h
      · -- no item stands on two pages
        have hzx : z ∈ x.1 := (List.mem_filter.1 (hfront.subset h)).1
        have hzz := hpaged.lt_of_before hasc hpages hy hz hzx
        simp at hzz
      · -- what is written after the later page lies above it
        have hwz := hrow.append.2.1.append.2.2 w hw z h
        have hzz := Std.TransCmp.lt_trans hzw hwz
        simp at hzz
  exact hlog.acknowledged_of_last hpaged hasc hsplit hypages hz hbound hzearlier

/-- What is written in order leaves no gap below the last key, and nothing of an acknowledged page
is missing. -/
lemma covered_of_inOrder (hlog : Log frame pages rs) (hpaged : Paged all pages [])
    (hasc : Ascending all) (horder : InOrder (pages.map frame) rs) :
    Covered all rs ∧ ∀ r ∈ rs, r.acknowledged = true → ∀ x ∈ pages, r.frame = frame x →
      ∀ i ∈ x.1, i ∈ allWritten rs := by
  induction hlog with
  | nil => exact ⟨fun i _ h => (nomatch h), fun r hr => (nomatch hr)⟩
  | @snoc rs r x hlog hx hrx hfront hack ih =>
    obtain ⟨hcovered, htaken⟩ := ih fun earlier r' later hsplit =>
      horder earlier r' (later ++ [r]) (by rw [hsplit]; simp)
    obtain ⟨pre, post, hpages, hpre⟩ := List.eq_append_cons_of_mem hx
    have hpage := hpaged.ascending_page hasc hx
    have hall : allWritten (rs ++ [r]) = allWritten rs ++ r.written := by
      rw [allWritten_append, allWritten_singleton]
    unfold Covered
    rw [hall]
    constructor
    · intro i hi hlow
      by_cases hne : r.written = []
      · rw [lastWritten_snoc, hne] at hlow
        exact List.mem_append.2 (.inl (hcovered i hi hlow))
      · -- the pages in front were acknowledged, and those behind lie above what is written now
        have hbefore := horder rs r [] rfl hne
        rw [hrx, takeWhile_frames hframe hpages hpre] at hbefore
        obtain ⟨w, hw⟩ : ∃ w, r.written.getLast? = some w := ⟨_, List.getLast?_eq_some_getLast hne⟩
        have hlast : lastWritten (rs ++ [r]) = some w.key := by
          rw [lastWritten_snoc]
          unfold ReceiverSession.lastAfter
          rw [hw]
          rfl
        have hwr : w ∈ r.written := List.mem_of_getLast? hw
        have hwx : w ∈ x.1 := (List.mem_filter.1 (hfront.subset hwr)).1
        have hiw : ¬ compare w.key i.key = .lt := by
          rw [← ReceiverSession.above_some_iff, ← hlast, hlow]
          simp
        obtain ⟨y, hy, hiy⟩ := hpaged.exists_page hi
        rw [hpages, List.mem_append, List.mem_cons] at hy
        rcases hy with hy | rfl | hy
        · obtain ⟨r', hr', hframe', hack'⟩ := hbefore (frame y) (List.mem_map.2 ⟨y, hy, rfl⟩)
          exact List.mem_append.2 (.inl
            (htaken r' hr' hack' y (by rw [hpages]; simp [hy]) hframe' i hiy))
        · cases habove : ReceiverSession.above (lastWritten rs) i.key with
          | false => exact List.mem_append.2 (.inl (hcovered i hi habove))
          | true =>
            have hmem := mem_front_of_not_lt (hpage.sublist List.filter_sublist) hfront hwr
              (List.mem_filter.2 ⟨hiy, habove⟩) hiw
            exact List.mem_append.2 (.inr hmem)
        · exact absurd (hpaged.lt_of_behind hasc hpages hy hwx hiy) hiw
    · intro r' hr' hack' x' hx' hframe' i hi
      rcases List.mem_append.1 hr' with hr' | hr'
      · exact List.mem_append.2 (.inl (htaken r' hr' hack' x' hx' hframe' i hi))
      · rw [List.mem_singleton.1 hr'] at hack' hframe'
        obtain rfl := hframe x hx x' hx' (hrx.symm.trans hframe')
        cases habove : ReceiverSession.above (lastWritten rs) i.key with
        | false =>
          exact List.mem_append.2 (.inl (hcovered i (hpaged.mem_all hx hi) habove))
        | true =>
          rw [hack.1 hack']
          exact List.mem_append.2 (.inr (List.mem_filter.2 ⟨hi, habove⟩))

/-- Once the final page is acknowledged, everything was written exactly if nothing was written out
of order. -/
theorem all_written_iff_inOrder (hlog : Log frame pages (rs ++ [r])) (hpaged : Paged all pages rest)
    (hasc : Ascending all) (hack : r.acknowledged = true) {x : List StoreItem × Bool}
    (hx : x ∈ pages) (hfinal : x.2 = true) (hrx : r.frame = frame x) :
    (∀ i ∈ all, i ∈ allWritten (rs ++ [r])) ↔ InOrder (pages.map frame) (rs ++ [r]) := by
  constructor
  · exact inOrder_of_all hframe hlog hpaged hasc
  · intro horder i hi
    obtain ⟨rfl, init, hpages⟩ := hpaged.eq_concat hx hfinal
    obtain ⟨hcovered, htaken⟩ := covered_of_inOrder hframe hlog hpaged hasc horder
    have hpage := htaken r (by simp) hack x hx hrx
    obtain ⟨y, hy, hiy⟩ := hpaged.exists_page hi
    rw [hpages, List.mem_append, List.mem_singleton] at hy
    rcases hy with hy | rfl
    · -- an item of the final page was written, so the last key is above all earlier pages
      have hne : x.1 ≠ [] := by
        intro hnil
        rw [hpaged.eq_nil hx hnil] at hi
        cases hi
      obtain ⟨z, hz⟩ := List.exists_mem_of_ne_nil _ hne
      have hiz := hpaged.lt_of_before hasc hpages hy hiy hz
      obtain ⟨l, hl, hzl⟩ := isLE_lastWritten (hlog.ascending hpaged hasc) (hpage z hz)
      have hil := Std.TransCmp.lt_of_lt_of_isLE hiz hzl
      refine hcovered i hi ?_
      rw [hl]
      unfold ReceiverSession.above
      simp [hil]
    · exact hpage i hiy

end

end Reception

end ReplicaRing
