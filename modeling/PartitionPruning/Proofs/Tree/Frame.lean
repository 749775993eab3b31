import PartitionPruning.Proofs.Itemwise
import PartitionPruning.Proofs.Tree.Calls

/-! What replacing and writing leave as it is. A tree with other nodes in the places of its topmost
nodes is the same everywhere else, and a field that is written over keeps its place among the
others. -/

namespace PartitionPruning

namespace Fields

/-- The keys are the same and in the same order, and so are the values but for those that `may` lets
change: of a key, the value before and the value after. -/
def ChangesOnly (may : String → Node → Node → Prop) (before after : Fields Node) : Prop :=
  List.Forall₂ (fun e d => e.1 = d.1 ∧ (e.2 = d.2 ∨ may e.1 e.2 d.2)) before after

variable {may first second : String → Node → Node → Prop} {fs gs hs : Fields Node}

theorem ChangesOnly.refl (fs : Fields Node) : ChangesOnly may fs fs :=
  List.forall₂_same.mpr fun _ _ => ⟨rfl, Or.inl rfl⟩

/-- Two changes one after the other, of which no value goes through both. -/
theorem ChangesOnly.trans (hfg : ChangesOnly first fs gs) (hgh : ChangesOnly second gs hs)
    (hfirst : ∀ key v w, first key v w → may key v w)
    (hsecond : ∀ key v w, second key v w → may key v w)
    (hboth : ∀ key u v w, first key u v → ¬ second key v w) : ChangesOnly may fs hs := by
  induction hfg generalizing hs with
  | nil =>
    cases hgh
    exact .nil
  | cons hentry _ ih =>
    cases hgh with
    | cons hentry' hrest =>
      obtain ⟨hkey, hvalue⟩ := hentry
      obtain ⟨hkey', hvalue'⟩ := hentry'
      refine .cons ⟨hkey.trans hkey', ?_⟩ (ih hrest)
      rcases hvalue with hsame | hchanged
      · rw [hsame, hkey]
        exact hvalue'.imp id (hsecond _ _ _)
      · rcases hvalue' with hsame' | hchanged'
        · exact Or.inr (hfirst _ _ _ (hsame' ▸ hchanged))
        · rw [← hkey] at hchanged'
          exact absurd hchanged' (hboth _ _ _ _ hchanged)

/-- Writing over the value of a key changes nothing else. -/
theorem changesOnly_insert {key : String} {old : Node} (h : get? fs key = some old) (new : Node) :
    ChangesOnly (fun k v w => k = key ∧ v = old ∧ w = new) fs (insert fs key new) := by
  induction fs with
  | nil => contradiction
  | cons e fs ih =>
    obtain ⟨k, v⟩ := e
    unfold get? at h
    unfold insert
    by_cases hk : k = key
    · have hrest : ChangesOnly (fun k v w => k = key ∧ v = old ∧ w = new) fs fs := .refl fs
      rw [if_pos hk] at h ⊢
      exact .cons ⟨rfl, Or.inr ⟨hk, Option.some.inj h, rfl⟩⟩ hrest
    · rw [if_neg hk] at h ⊢
      exact .cons ⟨rfl, Or.inl rfl⟩ (ih h)

end Fields

namespace Node

theorem isNull_of_present? {n v : Node} {key : String} (h : n.present? key = some v) :
    v.isNull = false := by
  simpa using (Option.filter_eq_some_iff.mp h).2

/-- An object becomes another one, of whose fields only values that `may` lets change are new. -/
def ChangesOnly (may : String → Node → Node → Prop) (before after : Node) : Prop :=
  ∃ fs gs, before = object fs ∧ after = object gs ∧ Fields.ChangesOnly may fs gs

section

variable {may first second : String → Node → Node → Prop} {a b c : Node}

theorem ChangesOnly.refl {type : String} (h : a.type? = some type) : ChangesOnly may a a := by
  cases a with
  | object fs => exact ⟨fs, fs, rfl, rfl, .refl fs⟩
  | _ => contradiction

theorem ChangesOnly.trans (hab : a.ChangesOnly first b) (hbc : b.ChangesOnly second c)
    (hfirst : ∀ key v w, first key v w → may key v w)
    (hsecond : ∀ key v w, second key v w → may key v w)
    (hboth : ∀ key u v w, first key u v → ¬ second key v w) : a.ChangesOnly may c := by
  obtain ⟨fs, gs, rfl, rfl, hfg⟩ := hab
  obtain ⟨_, hs, heq, rfl, hgh⟩ := hbc
  obtain rfl := object.inj heq
  exact ⟨fs, hs, rfl, rfl, hfg.trans hgh hfirst hsecond hboth⟩

theorem changesOnly_withField {key : String} {old new : Node} (hold : a.field? key = some old)
    (hmay : may key old new) (h : a.withField key new = .ok b) : a.ChangesOnly may b := by
  cases a with
  | object fs =>
    obtain rfl := Except.ok.inj h
    refine ⟨fs, _, rfl, rfl, (Fields.changesOnly_insert hold new).imp ?_⟩
    rintro e d ⟨hkey, hsame | ⟨rfl, rfl, rfl⟩⟩
    · exact ⟨hkey, Or.inl hsame⟩
    · exact ⟨hkey, Or.inr hmay⟩
  | _ => contradiction

end

/-! ### Topmost nodes -/

/-- Every topmost node that satisfies `p` has given way to one to which `R` relates it, and nothing
else in the tree has changed. -/
def ChangesTopmost (p : Node → Bool) (R : Node → Node → Prop) (before after : Node) : Prop :=
  ∃ rs, List.Forall₂ R (topmost p before) rs ∧ after = putTopmost p before rs

variable {p : Node → Bool}

theorem of_mem_topmost {n t : Node} (h : t ∈ topmost p n) : p t = true := by
  induction n using replaceInduction p with
  | replaced n hn =>
    rw [topmost_of_pos hn, List.mem_singleton] at h
    exact h ▸ hn
  | scalar n hn hscalar =>
    rw [topmost_of_isScalar hn hscalar] at h
    contradiction
  | array xs hn ih =>
    rw [topmost_array hn, List.mem_flatMap] at h
    obtain ⟨x, hx, ht⟩ := h
    exact ih x hx ht
  | object fs hn ih =>
    rw [topmost_object hn, List.mem_flatMap] at h
    obtain ⟨e, he, ht⟩ := h
    exact ih e he ht

section

variable {ε : Type} {f : Node → Except ε Node} {n r : Node}

theorem changesTopmost_of_replaceM {R : Node → Node → Prop}
    (hf : ∀ x y, p x = true → f x = .ok y → R x y) (hr : replaceM p f n = .ok r) :
    n.ChangesTopmost p R r := by
  rw [replaceM_eq_putTopmost, map_eq_ok] at hr
  obtain ⟨rs, hrs, rfl⟩ := hr
  have hresults : List.Forall₂ (fun t s => p t = true ∧ f t = .ok s) (topmost p n) rs :=
    (List.forall₂_and_left _ _).mpr ⟨fun t => of_mem_topmost, mapM_eq_ok_iff_forall₂.mp hrs⟩
  exact ⟨rs, hresults.imp fun t s h => hf t s h.1 h.2, rfl⟩

/-- Replacing has a result if it has one on each of the topmost nodes. -/
theorem exists_replaceM_iff :
    (∃ r, replaceM p f n = .ok r) ↔ ∀ t ∈ topmost p n, ∃ s, f t = .ok s := by
  rw [replaceM_eq_putTopmost, exists_map_eq_ok_iff, exists_mapM_eq_ok_iff]

/-- Replacing fails as it does on the first of the topmost nodes where it fails. -/
theorem replaceM_eq_error {before after : List Node} {t : Node} {e : ε}
    (hn : topmost p n = before ++ t :: after) (hbefore : ∀ s ∈ before, ∃ r, f s = .ok r)
    (ht : f t = .error e) : replaceM p f n = .error e := by
  rw [replaceM_eq_putTopmost]
  exact map_eq_error.mpr (mapM_eq_error.mpr ⟨before, t, after, hn, hbefore, ht⟩)

end

end Node

end PartitionPruning
