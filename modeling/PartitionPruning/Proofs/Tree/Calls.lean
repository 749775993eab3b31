import PartitionPruning.Proofs.Tree.DistinctKeys
import PartitionPruning.Proofs.Tree.Topmost

/-! The effects of replacing. It calls the function once on each topmost node that satisfies the
test, in document order, until a call fails; and if none does, the results stand in the places of
these nodes and nothing else has changed. Building every array and every object anew would come to
the same. -/

namespace PartitionPruning

/-! ### Effects over lists -/

section

variable {m : Type → Type} [Monad m] [LawfulMonad m] {α β γ δ : Type}

theorem mapM_congr {f g : α → m β} {xs : List α} (h : ∀ x ∈ xs, f x = g x) :
    xs.mapM f = xs.mapM g := by
  induction xs with
  | nil => rw [List.mapM_nil, List.mapM_nil]
  | cons x xs ih =>
    obtain ⟨hx, hxs⟩ := List.forall_mem_cons.mp h
    rw [List.mapM_cons, List.mapM_cons, hx, ih hxs]

/-- What comes after a computation on every item can rely on one result for each of them. -/
theorem mapM_bind_congr {f : α → m β} {k l : List β → m γ} {xs : List α}
    (h : ∀ ys, ys.length = xs.length → k ys = l ys) : xs.mapM f >>= k = xs.mapM f >>= l := by
  induction xs generalizing k l with
  | nil =>
    rw [List.mapM_nil, pure_bind, pure_bind]
    exact h [] rfl
  | cons x xs ih =>
    simp only [List.mapM_cons, bind_assoc, pure_bind]
    refine bind_congr fun y => ih fun ys hys => h (y :: ys) ?_
    rw [List.length_cons, hys, List.length_cons]

/-- Goes over items together with results, of which `count` belong to each item in turn. -/
def distribute (count : α → Nat) (put : α → List β → γ) : List α → List β → List γ
  | [], _ => []
  | x :: xs, rs =>
    put x (rs.take (count x)) :: distribute count put xs (rs.drop (count x))

theorem mapM_flatMap (f : β → m δ) (g : α → List β) (put : α → List δ → γ) (xs : List α) :
    (xs.mapM fun x => put x <$> (g x).mapM f) =
      distribute (fun x => (g x).length) put xs <$> (xs.flatMap g).mapM f := by
  induction xs with
  | nil => simp [distribute]
  | cons x xs ih =>
    rw [List.mapM_cons, ih, List.flatMap_cons, List.mapM_append]
    simp only [bind_map_left, map_bind, map_pure]
    refine mapM_bind_congr fun rs hrs => bind_congr fun rest => ?_
    rw [distribute, List.take_left' hrs, List.drop_left' hrs]

end

/-! ### A state, and failures that keep it -/

section

variable {ε σ α β : Type} {x : ExceptT ε (StateM σ) α} {s t : σ}

theorem run_bind_of_ok {g : α → ExceptT ε (StateM σ) β} {a : α}
    (h : x.run.run s = (.ok a, t)) : (x >>= g).run.run s = (g a).run.run t := by
  rw [ExceptT.run_bind, StateT.run_bind, h]
  rfl

theorem run_bind_of_error {g : α → ExceptT ε (StateM σ) β} {e : ε}
    (h : x.run.run s = (.error e, t)) : (x >>= g).run.run s = (.error e, t) := by
  rw [ExceptT.run_bind, StateT.run_bind, h]
  rfl

/-- Calls of `f` on items one after the other, from a state to a state, each with a result. -/
inductive Calls (f : α → ExceptT ε (StateM σ) β) : σ → List α → List β → σ → Prop
  | nil (s : σ) : Calls f s [] [] s
  | cons {s t u : σ} {x : α} {y : β} {xs : List α} {ys : List β}
    (first : (f x).run.run s = (.ok y, t)) (rest : Calls f t xs ys u) :
    Calls f s (x :: xs) (y :: ys) u

/-- A list is gone through to its end, or to the first call that fails. -/
theorem run_mapM (f : α → ExceptT ε (StateM σ) β) (xs : List α) (s : σ) :
    (∃ ys t, Calls f s xs ys t ∧ (xs.mapM f).run.run s = (.ok ys, t)) ∨
    ∃ before x after ys t e u, xs = before ++ x :: after ∧ Calls f s before ys t ∧
      (f x).run.run t = (.error e, u) ∧ (xs.mapM f).run.run s = (.error e, u) := by
  induction xs generalizing s with
  | nil => exact Or.inl ⟨[], s, .nil s, rfl⟩
  | cons x xs ih =>
    rw [List.mapM_cons]
    rcases hx : (f x).run.run s with ⟨e | y, t⟩
    · exact Or.inr ⟨[], x, xs, [], s, e, t, rfl, .nil s, hx, run_bind_of_error hx⟩
    · rw [run_bind_of_ok hx]
      rcases ih t with
        ⟨ys, u, hcalls, hrun⟩ | ⟨before, z, after, ys, u, e, v, rfl, hcalls, hz, hrun⟩
      · exact Or.inl ⟨y :: ys, u, .cons hx hcalls, run_bind_of_ok hrun⟩
      · exact Or.inr ⟨x :: before, z, after, y :: ys, u, e, v, rfl, .cons hx hcalls, hz,
          run_bind_of_error hrun⟩

end

namespace Node

/-! ### Results in the places of nodes -/

mutual

/-- The tree with the results `rs` in the places of the topmost nodes that satisfy `p`, in document
order. -/
def putTopmost (p : Node → Bool) (n : Node) (rs : List Node) : Node :=
  if p n then rs.headD n
  else match n with
    | array xs => array (putItems p xs rs)
    | object fs => object (putFields p fs rs)
    | n => n

def putItems (p : Node → Bool) : List Node → List Node → List Node
  | [], _ => []
  | x :: xs, rs =>
    putTopmost p x (rs.take (topmost p x).length) ::
      putItems p xs (rs.drop (topmost p x).length)

def putFields (p : Node → Bool) : List (String × Node) → List Node → List (String × Node)
  | [], _ => []
  | (key, x) :: fs, rs =>
    (key, putTopmost p x (rs.take (topmost p x).length)) ::
      putFields p fs (rs.drop (topmost p x).length)

end

variable {p : Node → Bool}

theorem putTopmost_of_pos {n : Node} (h : p n = true) (r : Node) : putTopmost p n [r] = r := by
  unfold putTopmost
  simp [h]

theorem putTopmost_of_isScalar {n : Node} (h : p n = false) (hn : n.isScalar = true)
    (rs : List Node) : putTopmost p n rs = n := by
  unfold putTopmost
  cases n <;> simp_all [isScalar]

theorem putItems_eq (xs : List Node) : putItems p xs =
    distribute (fun x => (topmost p x).length) (putTopmost p) xs := by
  funext rs
  induction xs generalizing rs with
  | nil => rfl
  | cons x xs ih => rw [putItems, distribute, ih]

theorem putFields_eq (fs : Fields Node) : putFields p fs =
    distribute (fun e => (topmost p e.2).length) (fun e rs => (e.1, putTopmost p e.2 rs)) fs := by
  funext rs
  induction fs generalizing rs with
  | nil => rfl
  | cons e fs ih => rw [putFields, distribute, ih]

theorem keys_putFields (fs : Fields Node) (rs : List Node) :
    Fields.keys (putFields p fs rs) = Fields.keys fs := by
  induction fs generalizing rs with
  | nil => rfl
  | cons e fs ih => rw [putFields, Fields.keys_cons, Fields.keys_cons, ih]

theorem values_putFields (fs : Fields Node) (rs : List Node) :
    Fields.values (putFields p fs rs) = putItems p (Fields.values fs) rs := by
  induction fs generalizing rs with
  | nil => rfl
  | cons e fs ih =>
    rw [putFields, Fields.values, List.map_cons, ← Fields.values, ih]
    rfl

theorem putTopmost_array {xs : List Node} (h : p (array xs) = false) :
    putTopmost p (array xs) = fun rs => array (putItems p xs rs) := by
  funext rs
  rw [putTopmost, h]
  rfl

theorem putTopmost_object {fs : Fields Node} (h : p (object fs) = false) :
    putTopmost p (object fs) = fun rs => object (putFields p fs rs) := by
  funext rs
  rw [putTopmost, h]
  rfl

/-! ### The calls of replacing -/

section

variable {m : Type → Type} [Monad m] [LawfulMonad m] {f g : Node → m Node}

theorem mapM_eq_putItems {xs : List Node} (h : p (array xs) = false)
    (hg : ∀ x ∈ xs, g x = putTopmost p x <$> (topmost p x).mapM f) :
    xs.mapM g = putItems p xs <$> (topmost p (array xs)).mapM f := by
  rw [mapM_congr hg, mapM_flatMap, topmost_array h, putItems_eq]

theorem mapM_eq_putFields {fs : Fields Node} (h : p (object fs) = false)
    (hg : ∀ e ∈ fs, g e.2 = putTopmost p e.2 <$> (topmost p e.2).mapM f) :
    (fs.mapM fun e => (e.1, ·) <$> g e.2) =
      putFields p fs <$> (topmost p (object fs)).mapM f := by
  have hvalues : ∀ e ∈ fs, (e.1, ·) <$> g e.2 =
      (fun rs => (e.1, putTopmost p e.2 rs)) <$> (topmost p e.2).mapM f := fun e he => by
    rw [hg e he, Functor.map_map]
  rw [mapM_congr hvalues, mapM_flatMap, topmost_object h, putFields_eq]

/-- Replacing calls the function on the topmost nodes, in document order, and puts the results in
their places. -/
theorem replaceM_eq_putTopmost (n : Node) :
    replaceM p f n = putTopmost p n <$> (topmost p n).mapM f := by
  induction n using replaceInduction p with
  | replaced n hn => simp [replaceM_of_pos hn, topmost_of_pos hn, putTopmost_of_pos hn]
  | scalar n hn hscalar =>
    simp [replaceM_of_isScalar hn hscalar, topmost_of_isScalar hn hscalar,
      putTopmost_of_isScalar hn hscalar]
  | array xs hn ih =>
    rw [replaceM_array hn, mapM_eq_putItems hn ih, Functor.map_map, putTopmost_array hn]
  | object fs hn ih =>
    rw [replaceM_object hn, mapM_eq_putFields hn ih, Functor.map_map, putTopmost_object hn]

end

/-! ### Building everything anew -/

section

variable {m : Type → Type} [Monad m]

mutual

/-- Replacing that builds all arrays and objects anew, and writes the fields of an object one by
one. -/
def rebuildM (p : Node → Bool) (f : Node → m Node) (n : Node) : m Node :=
  if p n then f n
  else match n with
    | array xs => array <$> rebuildItems p f xs
    | object fs => (fun entries => object (Fields.ofEntries entries)) <$> rebuildFields p f fs
    | n => pure n

def rebuildItems (p : Node → Bool) (f : Node → m Node) : List Node → m (List Node)
  | [] => pure []
  | x :: xs => do
    let first ← rebuildM p f x
    let rest ← rebuildItems p f xs
    pure (first :: rest)

def rebuildFields (p : Node → Bool) (f : Node → m Node) :
    List (String × Node) → m (List (String × Node))
  | [] => pure []
  | (key, x) :: fs => do
    let first ← rebuildM p f x
    let rest ← rebuildFields p f fs
    pure ((key, first) :: rest)

end

variable {f : Node → m Node}

theorem rebuildM_of_pos {n : Node} (h : p n = true) : rebuildM p f n = f n := by
  unfold rebuildM
  simp [h]

theorem rebuildM_of_isScalar {n : Node} (h : p n = false) (hn : n.isScalar = true) :
    rebuildM p f n = pure n := by
  unfold rebuildM
  cases n <;> simp_all [isScalar]

variable [LawfulMonad m]

theorem rebuildItems_eq (xs : List Node) : rebuildItems p f xs = xs.mapM (rebuildM p f) := by
  induction xs with
  | nil => rw [rebuildItems, List.mapM_nil]
  | cons x xs ih => rw [rebuildItems, List.mapM_cons, ih]

theorem rebuildFields_eq (fs : Fields Node) :
    rebuildFields p f fs = fs.mapM fun e => (e.1, ·) <$> rebuildM p f e.2 := by
  induction fs with
  | nil => rw [rebuildFields, List.mapM_nil]
  | cons e fs ih => rw [rebuildFields, List.mapM_cons, ih, bind_map_left]

theorem rebuildM_array {xs : List Node} (h : p (array xs) = false) :
    rebuildM p f (array xs) = array <$> xs.mapM (rebuildM p f) := by
  rw [rebuildM, h, ← rebuildItems_eq]
  rfl

theorem rebuildM_object {fs : Fields Node} (h : p (object fs) = false) :
    rebuildM p f (object fs) = (fun entries => object (Fields.ofEntries entries)) <$>
      fs.mapM fun e => (e.1, ·) <$> rebuildM p f e.2 := by
  rw [rebuildM, h, ← rebuildFields_eq]
  rfl

/-- Fields that are written one by one stay as they are if their keys are distinct. -/
theorem rebuildM_eq_putTopmost {n : Node} (hkeys : n.DistinctKeys) :
    rebuildM p f n = putTopmost p n <$> (topmost p n).mapM f := by
  induction n using replaceInduction p with
  | replaced n hn => simp [rebuildM_of_pos hn, topmost_of_pos hn, putTopmost_of_pos hn]
  | scalar n hn hscalar =>
    simp [rebuildM_of_isScalar hn hscalar, topmost_of_isScalar hn hscalar,
      putTopmost_of_isScalar hn hscalar]
  | array xs hn ih =>
    rw [distinctKeys_array_iff] at hkeys
    rw [rebuildM_array hn, mapM_eq_putItems hn fun x hx => ih x hx (hkeys x hx), Functor.map_map,
      putTopmost_array hn]
  | object fs hn ih =>
    obtain ⟨hdistinct, hvalues⟩ := distinctKeys_object_iff.mp hkeys
    have hwritten (rs : List Node) : Fields.ofEntries (putFields p fs rs) = putFields p fs rs :=
      Fields.ofEntries_of_nodup (by rw [keys_putFields]; exact hdistinct)
    rw [rebuildM_object hn, mapM_eq_putFields hn fun e he => ih e he (hvalues e he),
      Functor.map_map, putTopmost_object hn]
    simp only [hwritten]

end

/-- Replacing calls the function on the topmost nodes that satisfy the test, in document order. If
no call fails, the results are put in the places of these nodes; otherwise the first failure is what
comes out, with the state that this call has left. Where keys are distinct, building everything anew
would not make a difference. -/
theorem run_replaceM {ε σ : Type} (p : Node → Bool) (f : Node → ExceptT ε (StateM σ) Node)
    (n : Node) (s : σ) :
    ((∃ rs t, Calls f s (topmost p n) rs t ∧
        (replaceM p f n).run.run s = (.ok (putTopmost p n rs), t)) ∨
      ∃ before x after rs t e u, topmost p n = before ++ x :: after ∧ Calls f s before rs t ∧
        (f x).run.run t = (.error e, u) ∧ (replaceM p f n).run.run s = (.error e, u)) ∧
    (n.DistinctKeys → replaceM p f n = rebuildM p f n) := by
  constructor
  · rw [replaceM_eq_putTopmost, map_eq_pure_bind]
    rcases run_mapM f (topmost p n) s with
      ⟨rs, t, hcalls, hrun⟩ | ⟨before, x, after, rs, t, e, u, hsplit, hcalls, hx, hrun⟩
    · exact Or.inl ⟨rs, t, hcalls, run_bind_of_ok hrun⟩
    · exact Or.inr ⟨before, x, after, rs, t, e, u, hsplit, hcalls, hx, run_bind_of_error hrun⟩
  · intro hkeys
    rw [replaceM_eq_putTopmost, rebuildM_eq_putTopmost hkeys]

/-- Three texts at different depths. -/
def threeTexts : Node := .array [.string "x", .object [("k", .string "y")], .string "z"]

/-- Notes the node, and fails on the text `y`. -/
def noteUnlessY (n : Node) : ExceptT String (StateM (List Node)) Node := do
  modify (· ++ [n])
  if n.text? = some "y" then throw "y" else pure (.bool true)

/-- Replacing texts fails on the second one, and has not come to the third. -/
theorem run_replaceM_stops :
    threeTexts.DistinctKeys ∧
      replaceM (fun n => n.text?.isSome) noteUnlessY threeTexts =
        rebuildM (fun n => n.text?.isSome) noteUnlessY threeTexts ∧
      (replaceM (fun n => n.text?.isSome) noteUnlessY threeTexts).run.run [] =
        (.error "y", [.string "x", .string "y"]) := by
  have hkeys : threeTexts.DistinctKeys := by decide
  exact ⟨hkeys, (run_replaceM _ noteUnlessY threeTexts []).2 hkeys, rfl⟩

end Node

end PartitionPruning
