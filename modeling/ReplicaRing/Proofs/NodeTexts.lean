import Mathlib.Data.Option.Basic
import Mathlib.Tactic.Common
import ReplicaRing.Node.Id

/-!
Nodes and their text forms. The text of a node has its parts behind each other, and reading one
splits it at the first `#` and at the last `:`, so the text gives the node back unless the host is
empty or has a `#` of its own; a `:` in the host does no harm, `NodeId.parse_render`. Numbers may be
written with a sign and with zeros in front, so different texts may stand for one node, but what is
read from any of them is a node whose own text gives it back, `NodeId.legible_of_parse`.
-/

namespace ReplicaRing

namespace Decimal

/-- Digits stand for the number they spell. -/
lemma readDigits_of_isDigit {digits : List Char} (h : ∀ c ∈ digits, c.isDigit = true) (n : Nat) :
    readDigits n digits = some (Nat.ofDigitChars 10 digits n) := by
  induction digits generalizing n with
  | nil => rfl
  | cons c rest ih =>
    have hc : '0' ≤ c ∧ c ≤ '9' := by
      have hdigit := h c List.mem_cons_self
      unfold Char.isDigit at hdigit
      rwa [Bool.and_eq_true, decide_eq_true_iff, decide_eq_true_iff] at hdigit
    unfold readDigits
    rw [if_pos hc, Nat.ofDigitChars_cons]
    exact ih (fun d hd => h d (List.mem_cons_of_mem c hd)) _

/-- A number is read back from its decimal digits, unless it is above the limit. -/
lemma read?_toDigits {max n : Nat} (h : n ≤ max) : read? max (Nat.toDigits 10 n) = some n := by
  have hdigits : ∀ c ∈ Nat.toDigits 10 n, c.isDigit = true := fun c hc =>
    Nat.isDigit_of_mem_toDigits (by decide) (by decide) hc
  have hread : readDigits 0 (Nat.toDigits 10 n) = some n := by
    rw [readDigits_of_isDigit hdigits, Nat.ofDigitChars_ten_toDigits]
  have hne : Nat.toDigits 10 n ≠ [] := Nat.toDigits_ne_nil
  unfold read?
  split
  · -- a sign is no digit
    rename_i rest htext
    exact absurd (hdigits '+' (by rw [htext]; exact List.mem_cons_self)) (by decide)
  · simp [hread, hne, h, guard]

/-- What is read is not above the limit. -/
lemma le_of_read? {max n : Nat} {text : List Char} (h : read? max text = some n) : n ≤ max := by
  unfold read? at h
  simp only [Option.bind_eq_bind, Option.bind_eq_some_iff, guard] at h
  obtain ⟨-, -, m, -, u, hle, hm⟩ := h
  cases hm
  by_contra hlt
  rw [if_neg hlt] at hle
  cases hle

end Decimal

namespace NodeId

/-! ## Splitting -/

section

variable {c : Char} {s before after : List Char}

lemma splitFirst_eq_none_iff : splitFirst c s = none ↔ c ∉ s := by
  induction s with
  | nil => simp [splitFirst]
  | cons x rest ih =>
    unfold splitFirst
    by_cases hx : x = c
    · simp [hx]
    · simp [hx, Ne.symm hx, ih]

/-- The first part ends where the character stands first. -/
lemma splitFirst_eq_some_iff :
    splitFirst c s = some (before, after) ↔ c ∉ before ∧ s = before ++ c :: after := by
  induction s generalizing before with
  | nil => simp [splitFirst]
  | cons x rest ih =>
    unfold splitFirst
    by_cases hx : x = c
    · subst hx
      cases before with
      | nil => simp [eq_comm]
      | cons y ys =>
        have hne : ¬ (x ∉ y :: ys ∧ x :: rest = y :: ys ++ x :: after) := by
          rintro ⟨hnot, heq⟩
          exact hnot (List.mem_cons.2 (.inl (List.cons.inj heq).1))
        simpa using hne
    · rw [if_neg hx]
      cases before with
      | nil => simp [hx]
      | cons y ys =>
        simp only [Option.map_eq_some_iff, Prod.exists, Prod.mk.injEq, List.cons.injEq,
          List.cons_append, List.mem_cons, not_or]
        constructor
        · rintro ⟨b, a, hsplit, ⟨rfl, rfl⟩, rfl⟩
          obtain ⟨hnot, rfl⟩ := ih.1 hsplit
          exact ⟨⟨Ne.symm hx, hnot⟩, rfl, rfl⟩
        · rintro ⟨⟨-, hnot⟩, rfl, rfl⟩
          exact ⟨ys, after, ih.2 ⟨hnot, rfl⟩, ⟨rfl, rfl⟩, rfl⟩

/-- The second part begins where the character stands last. -/
lemma splitLast_eq_some_iff :
    splitLast c s = some (before, after) ↔ c ∉ after ∧ s = before ++ c :: after := by
  have hreverse : s.reverse = after.reverse ++ c :: before.reverse ↔ s = before ++ c :: after := by
    rw [← List.reverse_inj, List.reverse_reverse]
    simp
  unfold splitLast
  simp only [Option.map_eq_some_iff, Prod.exists, Prod.mk.injEq, List.reverse_eq_iff]
  constructor
  · rintro ⟨b, a, hsplit, rfl, rfl⟩
    obtain ⟨hnot, heq⟩ := splitFirst_eq_some_iff.1 hsplit
    exact ⟨by simpa using hnot, hreverse.1 heq⟩
  · rintro ⟨hnot, heq⟩
    exact ⟨after.reverse, before.reverse,
      splitFirst_eq_some_iff.2 ⟨by simpa using hnot, hreverse.2 heq⟩, rfl, rfl⟩

end

/-! ## Reading -/

/-- A node whose host is not empty and has no `#`. -/
structure Legible (n : NodeId) : Prop where
  host : n.host ≠ ""
  unmarked : '#' ∉ n.host.toList

/-- Reads host and port. -/
def readPlace (s : String) (place : List Char) (vnode : Option UInt32) :
    Except ParseError NodeId :=
  match splitLast ':' place with
  | none => .error (.shape s)
  | some (host, port) =>
    match Decimal.read? 0xffff port with
    | none => .error (.port s)
    | some p =>
      if host.isEmpty then .error (.emptyHost s)
      else .ok ⟨String.ofList host, UInt16.ofNat p, vnode⟩

section

variable {n : NodeId} {s : String} {place : List Char} {vnode : Option UInt32}

lemma parse_eq (s : String) :
    parse s =
      match splitFirst '#' s.toList with
      | none => readPlace s s.toList none
      | some (place, suffix) =>
        match Decimal.read? 0xffffffff suffix with
        | some v => readPlace s place (some (UInt32.ofNat v))
        | none => .error (.vnode s) := by
  unfold parse
  cases splitFirst '#' s.toList with
  | none => rfl
  | some parts =>
    obtain ⟨place, suffix⟩ := parts
    simp only
    cases Decimal.read? 0xffffffff suffix with
    | none => rfl
    | some v => rfl

lemma readPlace_eq_ok_iff :
    readPlace s place vnode = .ok n ↔ n.vnode = vnode ∧ n.host ≠ "" ∧
      ∃ port, Decimal.read? 0xffff port = some n.port.toNat ∧ ':' ∉ port ∧
        place = n.host.toList ++ ':' :: port := by
  constructor
  · intro h
    unfold readPlace at h
    split at h
    · cases h
    · rename_i host port hsplit
      split at h
      · cases h
      · rename_i p hport
        split at h
        · cases h
        · rename_i hhost
          cases h
          have hp : (UInt16.ofNat p).toNat = p :=
            Nat.mod_eq_of_lt (Nat.lt_succ_of_le (Decimal.le_of_read? hport))
          obtain ⟨hnot, rfl⟩ := splitLast_eq_some_iff.1 hsplit
          refine ⟨rfl, ?_, port, ?_, hnot, ?_⟩
          · simpa using hhost
          · rw [hp]
            exact hport
          · rw [String.toList_ofList]
  · rintro ⟨rfl, hhost, port, hport, hnot, rfl⟩
    have hempty : n.host.toList.isEmpty = false := by simpa using hhost
    unfold readPlace
    rw [splitLast_eq_some_iff.2 ⟨hnot, rfl⟩]
    simp only [hport, hempty, Bool.false_eq_true, if_false, String.ofList_toList,
      UInt16.ofNat_toNat]

/-- What is read has a host that is neither empty nor marked. -/
theorem legible_of_parse (h : parse s = .ok n) : n.Legible := by
  rw [parse_eq] at h
  split at h
  · rename_i hnone
    obtain ⟨-, hhost, port, -, -, hplace⟩ := readPlace_eq_ok_iff.1 h
    rw [splitFirst_eq_none_iff, hplace] at hnone
    exact ⟨hhost, fun hin => hnone (List.mem_append_left _ hin)⟩
  · rename_i place suffix hsplit
    obtain ⟨hnone, -⟩ := splitFirst_eq_some_iff.1 hsplit
    split at h
    · obtain ⟨-, hhost, port, -, -, rfl⟩ := readPlace_eq_ok_iff.1 h
      exact ⟨hhost, fun hin => hnone (List.mem_append_left _ hin)⟩
    · cases h

/-! ## Writing -/

/-- A character that is no digit does not stand in a number. -/
lemma not_mem_toDigits {c : Char} (hc : c.isDigit = false) (k : Nat) : c ∉ Nat.toDigits 10 k := by
  intro hin
  rw [Nat.isDigit_of_mem_toDigits (by decide) (by decide) hin] at hc
  cases hc

lemma toList_address (n : NodeId) :
    n.address.toList = n.host.toList ++ ':' :: Nat.toDigits 10 n.port.toNat := by
  unfold address
  simp

/-- Host and port of a node are read from its address. -/
lemma readPlace_address (h : n.Legible) (s : String) :
    readPlace s n.address.toList n.vnode = .ok n :=
  readPlace_eq_ok_iff.2 ⟨rfl, h.host, _,
    Decimal.read?_toDigits (Nat.le_of_lt_succ n.port.toNat_lt),
    not_mem_toDigits (by decide) _, n.toList_address⟩

lemma unmarked_address (h : n.Legible) : '#' ∉ n.address.toList := by
  rw [toList_address, List.mem_append, List.mem_cons, not_or, not_or]
  exact ⟨h.unmarked, by decide, not_mem_toDigits (by decide) _⟩

/-- The text of a node gives it back. -/
theorem parse_render (h : n.Legible) : parse n.render = .ok n := by
  have hplace := readPlace_address h n.render
  have haddress := unmarked_address h
  rw [parse_eq]
  cases hvnode : n.vnode with
  | none =>
    have htext : n.render = n.address := by
      unfold render
      rw [hvnode]
    rw [htext] at hplace ⊢
    rw [splitFirst_eq_none_iff.2 haddress, ← hvnode]
    exact hplace
  | some v =>
    -- neither part of the address has the sign, so the text is split right behind it
    have htext : n.render.toList = n.address.toList ++ '#' :: Nat.toDigits 10 v.toNat := by
      unfold render
      rw [hvnode]
      simp
    have hread : Decimal.read? 0xffffffff (Nat.toDigits 10 v.toNat) = some v.toNat :=
      Decimal.read?_toDigits (Nat.le_of_lt_succ v.toNat_lt)
    rw [splitFirst_eq_some_iff.2 ⟨haddress, htext⟩]
    simp only [hread, UInt32.ofNat_toNat, ← hvnode]
    exact hplace

end

/-- The text of a node gives the node back exactly if its host is not empty and has no `#`, so two
such nodes never share a text. Every node that is read, from whatever text, is one of them, and its
own text gives it back. -/
theorem text_stands_for_node :
    (∀ n : NodeId, parse n.render = .ok n ↔ n.host ≠ "" ∧ '#' ∉ n.host.toList) ∧
      (∀ n m : NodeId, n.host ≠ "" ∧ '#' ∉ n.host.toList → m.host ≠ "" ∧ '#' ∉ m.host.toList →
        n.render = m.render → n = m) ∧
      ∀ s n, parse s = .ok n →
        (n.host ≠ "" ∧ '#' ∉ n.host.toList) ∧ parse n.render = .ok n := by
  have hback : ∀ n : NodeId, n.host ≠ "" ∧ '#' ∉ n.host.toList → parse n.render = .ok n :=
    fun n h => parse_render ⟨h.1, h.2⟩
  have hread : ∀ s n, parse s = .ok n → n.host ≠ "" ∧ '#' ∉ n.host.toList := fun s n h =>
    ⟨(legible_of_parse h).host, (legible_of_parse h).unmarked⟩
  refine ⟨fun n => ⟨hread n.render n, hback n⟩, fun n m hn hm htext => ?_, fun s n h => ?_⟩
  · have hsame := hback n hn
    rw [htext, hback m hm] at hsame
    exact (Except.ok.inj hsame).symm
  · exact ⟨hread s n h, hback n (hread s n h)⟩

/-- A host with colons of its own, a port with a sign and zeros in front, and a virtual node: the
text that is read is not the node's own, which gives it back all the same. -/
theorem text_stands_for_node_colons :
    parse "fe80::1:+007#04" = .ok ⟨"fe80::1", 7, some 4⟩ ∧
      (⟨"fe80::1", 7, some 4⟩ : NodeId).render = "fe80::1:7#4" ∧
      parse "fe80::1:7#4" = .ok ⟨"fe80::1", 7, some 4⟩ := by
  obtain ⟨hiff, -, hread⟩ := text_stands_for_node
  have hrender : (⟨"fe80::1", 7, some 4⟩ : NodeId).render = "fe80::1:7#4" := by decide
  have hparse : parse "fe80::1:+007#04" = .ok ⟨"fe80::1", 7, some 4⟩ := by cbv
  obtain ⟨-, hback⟩ := hread _ _ hparse
  rw [hrender] at hback
  exact ⟨hparse, hrender, hback⟩

end NodeId

end ReplicaRing
