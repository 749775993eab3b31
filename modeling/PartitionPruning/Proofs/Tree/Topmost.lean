import PartitionPruning.Proofs.Failure
import PartitionPruning.Proofs.Tree.Parts
import PartitionPruning.Proofs.Tree.Replace

/-! The topmost nodes that satisfy a test. They are those that replacing acts on, and every node
that satisfies the test is one of them or stands below one. -/

namespace PartitionPruning

namespace Node

mutual

/-- The nodes that satisfy `p` and stand below no other one that does, in document order. -/
def topmost (p : Node → Bool) (n : Node) : List Node :=
  if p n then [n]
  else match n with
    | array xs => topmostOfItems p xs
    | object fs => topmostOfFields p fs
    | _ => []

def topmostOfItems (p : Node → Bool) : List Node → List Node
  | [] => []
  | x :: xs => topmost p x ++ topmostOfItems p xs

def topmostOfFields (p : Node → Bool) : List (String × Node) → List Node
  | [] => []
  | (_, x) :: fs => topmost p x ++ topmostOfFields p fs

end

variable {p : Node → Bool}

theorem topmost_of_pos {n : Node} (h : p n = true) : topmost p n = [n] := by
  unfold topmost
  simp [h]

theorem topmost_of_isScalar {n : Node} (h : p n = false) (hn : n.isScalar = true) :
    topmost p n = [] := by
  unfold topmost
  cases n <;> simp_all [isScalar]

theorem topmostOfItems_eq (xs : List Node) : topmostOfItems p xs = xs.flatMap (topmost p) := by
  induction xs with
  | nil => rfl
  | cons x xs ih => rw [topmostOfItems, ih, List.flatMap_cons]

theorem topmostOfFields_eq (fs : Fields Node) :
    topmostOfFields p fs = fs.flatMap fun e => topmost p e.2 := by
  induction fs with
  | nil => rfl
  | cons e fs ih => rw [topmostOfFields, ih, List.flatMap_cons]

theorem topmost_array {xs : List Node} (h : p (array xs) = false) :
    topmost p (array xs) = xs.flatMap (topmost p) := by
  rw [topmost, h, ← topmostOfItems_eq]
  rfl

theorem topmost_object {fs : Fields Node} (h : p (object fs) = false) :
    topmost p (object fs) = fs.flatMap fun e => topmost p e.2 := by
  rw [topmost, h, ← topmostOfFields_eq]
  rfl

/-- A node that satisfies the test is topmost, or stands below a node that is. -/
theorem exists_topmost_of_mem_parts {n s : Node} (hs : s ∈ n.parts) (hp : p s = true) :
    ∃ t ∈ topmost p n, s ∈ t.parts := by
  have hne {n : Node} (hn : p n = false) : s ≠ n := fun h => by
    rw [← h, hp] at hn
    contradiction
  induction n using replaceInduction p with
  | replaced n hn => exact ⟨n, by rw [topmost_of_pos hn]; exact List.mem_cons_self, hs⟩
  | scalar n hn hscalar =>
    have hself : s = n := by cases n <;> simp_all [parts, isScalar]
    exact absurd hself (hne hn)
  | array xs hn ih =>
    rw [parts, List.mem_cons, itemParts_eq, List.mem_flatMap] at hs
    obtain ⟨x, hx, hs⟩ := hs.resolve_left (hne hn)
    obtain ⟨t, ht, hst⟩ := ih x hx hs
    rw [topmost_array hn]
    exact ⟨t, List.mem_flatMap_of_mem hx ht, hst⟩
  | object fs hn ih =>
    rw [parts, List.mem_cons, fieldParts_eq, List.mem_flatMap] at hs
    obtain ⟨e, he, hs⟩ := hs.resolve_left (hne hn)
    obtain ⟨t, ht, hst⟩ := ih e he hs
    rw [topmost_object hn]
    exact ⟨t, List.mem_flatMap_of_mem he ht, hst⟩

/-- The topmost nodes that satisfy `p` have a property, and no other node satisfies `p` but below
one of these. -/
def TopmostHave (p : Node → Bool) (Q : Node → Prop) (n : Node) : Prop :=
  (∀ t ∈ topmost p n, Q t) ∧ ∀ s ∈ n.parts, p s = true → ∃ t ∈ topmost p n, s ∈ t.parts

section

variable {ε : Type} {f : Node → Except ε Node} {Q : Node → Prop}

/-- What all replacements have in common holds of the topmost nodes of the result, if replacing
changes no node into one that satisfies the test, or the other way round. -/
theorem forall_topmost_of_replaceM (hf : ∀ x y, p x = true → f x = .ok y → Q y)
    (hp : ∀ x y, replaceM p f x = .ok y → p y = p x) {n r : Node}
    (hr : replaceM p f n = .ok r) : ∀ s ∈ topmost p r, Q s := by
  intro s hs
  have hsame := hp n r hr
  induction n using replaceInduction p generalizing r with
  | replaced n hn =>
    rw [topmost_of_pos (hsame.trans hn), List.mem_singleton] at hs
    rw [replaceM_of_pos hn] at hr
    exact hs ▸ hf n r hn hr
  | scalar n hn hscalar =>
    rw [replaceM_of_isScalar hn hscalar] at hr
    obtain rfl := Except.ok.inj hr
    rw [topmost_of_isScalar hn hscalar] at hs
    exact absurd hs List.not_mem_nil
  | array xs hn ih =>
    obtain ⟨ys, rfl, hys⟩ := replaceM_array_eq_ok hn hr
    rw [topmost_array (hsame.trans hn), List.mem_flatMap] at hs
    obtain ⟨y, hy, hs⟩ := hs
    obtain ⟨x, hx, hxy⟩ := exists_of_mem_of_mapM_eq_ok (mapM_eq_ok.mpr hys) hy
    exact ih x hx hxy hs (hp x y hxy)
  | object fs hn ih =>
    obtain ⟨gs, rfl, hgs⟩ := replaceM_object_eq_ok hn hr
    rw [topmost_object (hsame.trans hn), List.mem_flatMap] at hs
    obtain ⟨e, he, hs⟩ := hs
    obtain ⟨d, hd, hde⟩ := exists_of_mem_of_mapM_eq_ok hgs he
    obtain ⟨y, hy, rfl⟩ := map_eq_ok.mp hde
    exact ih d hd hy hs (hp d.2 y hy)

theorem topmostHave_of_replaceM (hf : ∀ x y, p x = true → f x = .ok y → Q y)
    (hp : ∀ x y, replaceM p f x = .ok y → p y = p x) {n r : Node}
    (hr : replaceM p f n = .ok r) : r.TopmostHave p Q :=
  ⟨forall_topmost_of_replaceM hf hp hr, fun _ hs => exists_topmost_of_mem_parts hs⟩

end

end Node

end PartitionPruning
