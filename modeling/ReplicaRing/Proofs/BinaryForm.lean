import Mathlib.Algebra.Ring.Nat
import Mathlib.Tactic.Common
import ReplicaRing.Wire.Format

/-!
Reading undoes writing. A value survives its binary form if reading what was written, whatever
follows it, yields the value and leaves exactly what follows. Words of fixed width survive always,
lists if their length fits the word it is written in and their members survive, and records if
their fields do.
-/

namespace ReplicaRing.Wire

/-! ## Readers -/

lemma takeBytes_append {n : Nat} {l : Bytes} (h : l.length = n) (rest : Bytes) :
    takeBytes n (l ++ rest) = .ok (l, rest) := by
  unfold takeBytes
  rw [if_pos (by simp [h]), List.take_left' h, List.drop_left' h]

section

variable {α β : Type} {r : Reader α} {b rest : Bytes} {a : α}

lemma bind_of_ok (f : α → Reader β) (h : r b = .ok (a, rest)) : r.bind f b = f a rest := by
  simp [Reader.bind, h]

lemma map_of_ok (f : α → β) (h : r b = .ok (a, rest)) : r.map f b = .ok (f a, rest) := by
  simp [Reader.map, bind_of_ok _ h, Reader.pure]

end

lemma readWord_append {width n : Nat} (h : n < 256 ^ width) (rest : Bytes) :
    readWord width (littleEndian width n ++ rest) = .ok (n, rest) := by
  have htake := takeBytes_append (length_littleEndian width n) rest
  have hvalue : n % Nat.pow 256 width = n := Nat.mod_eq_of_lt h
  rw [readWord, map_of_ok _ htake, ofLittleEndian_littleEndian, hvalue]

lemma readLength_append {n : Nat} (h : n < 2 ^ 64) (rest : Bytes) :
    readLength (putLength n ++ rest) = .ok (n, rest) :=
  readWord_append (by omega) rest

/-! ## Values that survive -/

/-- Reading what was written yields the value again and leaves what followed it. -/
def Survives {α : Type} [Encode α] (a : α) : Prop :=
  ∀ rest, (read : Reader α) (put a ++ rest) = .ok (a, rest)

lemma decode_put {α : Type} [Encode α] {a : α} (h : Survives a) : decode (put a) = .ok a := by
  have hread := h []
  rw [List.append_nil] at hread
  simp [decode, hread]

lemma survives_uint8 (n : UInt8) : Survives n := by
  intro rest
  have hword : readWord 1 (littleEndian 1 n.toNat ++ rest) = .ok (n.toNat, rest) :=
    readWord_append (by simpa using n.toNat_lt) rest
  exact (map_of_ok _ hword).trans (by simp)

/-- Members that survive are read one after the other. -/
lemma readMany_put {α : Type} [Encode α] {l : List α} (h : ∀ a ∈ l, Survives a)
    (done : List α) (rest : Bytes) :
    readMany read l.length done (l.flatMap put ++ rest) = .ok (done.reverse ++ l, rest) := by
  induction l generalizing done with
  | nil => simp [readMany, Reader.pure]
  | cons a l ih =>
    have hhead := h a (by simp) (l.flatMap put ++ rest)
    have htail := ih (fun x hx => h x (by simp [hx])) (a :: done)
    rw [List.flatMap_cons, List.append_assoc, List.length_cons, readMany, bind_of_ok _ hhead, htail]
    simp

lemma survives_list {α : Type} [Encode α] {l : List α} (hlen : l.length < 2 ^ 64)
    (h : ∀ a ∈ l, Survives a) : Survives l := by
  intro rest
  have hput : (put l : Bytes) ++ rest = putLength l.length ++ (l.flatMap put ++ rest) := by
    show putLength l.length ++ l.flatMap put ++ rest = _
    rw [List.append_assoc]
  rw [hput]
  exact (bind_of_ok _ (readLength_append hlen _)).trans (by simpa using readMany_put h [] rest)

lemma length_put_bytes (b : Bytes) : (put b : Bytes).length = 8 + b.length := by
  have hflat : (b.flatMap (put : UInt8 → Bytes)).length = b.length := by
    induction b with
    | nil => rfl
    | cons c b ih =>
      have hone : (put c : Bytes).length = 1 := length_littleEndian 1 _
      rw [List.flatMap_cons, List.length_append, ih, hone, List.length_cons]
      omega
  show (putLength b.length ++ b.flatMap put).length = _
  rw [List.length_append, hflat]
  exact congrArg (· + b.length) (length_littleEndian 8 _)

lemma survives_bytes {b : Bytes} (hlen : b.length < 2 ^ 64) : Survives b :=
  survives_list hlen fun n _ => survives_uint8 n

lemma survives_option {α : Type} [Encode α] {o : Option α} (h : ∀ a ∈ o, Survives a) :
    Survives o := by
  intro rest
  cases o with
  | none => exact bind_of_ok _ (takeBytes_append (l := [0]) rfl rest)
  | some a =>
    have htag := takeBytes_append (n := 1) (l := [1]) rfl (put a ++ rest)
    exact (bind_of_ok _ htag).trans (map_of_ok _ (h a rfl rest))

/-- An item survives if neither its key nor its value is of a length beyond words. -/
lemma survives_item {i : StoreItem} (hkey : i.key.length < 2 ^ 64)
    (hvalue : ∀ v ∈ i.value, v.length < 2 ^ 64) : Survives i := by
  intro rest
  have hput : (put i : Bytes) ++ rest = put i.key ++ (put i.value ++ rest) := by
    show put i.key ++ put i.value ++ rest = _
    rw [List.append_assoc]
  have hsecond : Survives i.value := survives_option fun v hv => survives_bytes (hvalue v hv)
  rw [hput]
  exact (bind_of_ok _ (survives_bytes hkey _)).trans (map_of_ok _ (hsecond rest))

end ReplicaRing.Wire
