import PartitionPruning.Proofs.Expr.Tag
import PartitionPruning.Proofs.Fingerprint.Literals
import PartitionPruning.Proofs.Tree.Json.Canonical

/-! Fingerprints tell queries apart. Two trees have the same canonical text if and only if they are
the same query. -/

namespace PartitionPruning

open Node

def withoutLiterals (n : Node) : Except Fault Node := n.replaceM Node.isConstant canonicalConstant

/-! ### One level of a tree -/

theorem withoutLiterals_constant {n : Node} (h : n.isConstant = true) :
    withoutLiterals n = canonicalConstant n :=
  replaceM_of_pos h

theorem withoutLiterals_scalar {n r : Node} (hn : n.isScalar = true)
    (hr : withoutLiterals n = .ok r) : r = n := by
  rw [withoutLiterals, replaceM_of_isScalar (isConstant_of_isScalar hn) hn] at hr
  exact (Except.ok.inj hr).symm

theorem withoutLiterals_array {xs : List Node} {r : Node}
    (hr : withoutLiterals (.array xs) = .ok r) :
    ∃ ys, r = .array ys ∧ xs.map withoutLiterals = ys.map .ok :=
  replaceM_array_eq_ok rfl hr

theorem withoutLiterals_object {fs : Fields Node} {r : Node}
    (h : (Node.object fs).isConstant = false) (hr : withoutLiterals (.object fs) = .ok r) :
    ∃ gs, r = .object gs ∧ Fields.keys gs = Fields.keys fs ∧
      ∀ key, (Fields.get? fs key).map withoutLiterals = (Fields.get? gs key).map .ok := by
  obtain ⟨gs, rfl, hgs⟩ := replaceM_object_eq_ok h hr
  exact ⟨gs, rfl, Fields.mapM_values_eq_ok hgs⟩

/-! ### What placeholders leave alone -/

/-- Only the field `value` of a constant is written. -/
theorem canonicalConstant_sameTag {n r : Node} (hr : canonicalConstant n = .ok r) :
    r.SameTag n := by
  rcases canonicalConstant_eq_ok hr with ⟨-, rfl⟩ | ⟨_, _, _, -, -, -, hfield⟩
  · exact .refl _
  · exact sameTag_withField hfield (by decide) (by decide)

theorem withoutLiterals_sameTag {n r : Node} (hr : withoutLiterals n = .ok r) : r.SameTag n :=
  sameTag_of_replaceM (fun _ _ _ => canonicalConstant_sameTag) hr

theorem Node.SameQuery.isConstant_eq {a b : Node} (h : a.SameQuery b) :
    a.isConstant = b.isConstant := by
  cases h with
  | constant isConstant => rw [isConstant.1, isConstant.2]
  | object isConstant => rw [isConstant.1, isConstant.2]
  | _ => rfl

theorem Node.SameQuery.shape_eq {a b : Node} (h : a.SameQuery b) : a.shape = b.shape := by
  cases h with
  | constant _ same => exact same.shape_eq
  | _ => rfl

/-! ### The whole tree -/

section

variable {x? y? u? v? : Option Node} (hx : x?.map withoutLiterals = u?.map .ok)
  (hy : y?.map withoutLiterals = v?.map .ok)
  (h : ∀ x y u v, x? = some x → y? = some y → withoutLiterals x = .ok u →
    withoutLiterals y = .ok v → (u.Same v ↔ x.SameQuery y))

include hx in
theorem isSome_eq_of_map : u?.isSome = x?.isSome := by
  simpa using (congrArg Option.isSome hx).symm

include hx hy h in
theorem same_values_iff : (∀ u v, u? = some u → v? = some v → u.Same v) ↔
    ∀ x y, x? = some x → y? = some y → x.SameQuery y := by
  constructor
  · rintro hsame x y rfl rfl
    obtain ⟨u, hu, hxu⟩ := Option.map_eq_some_iff.mp hx.symm
    obtain ⟨v, hv, hyv⟩ := Option.map_eq_some_iff.mp hy.symm
    exact (h x y u v rfl rfl hxu.symm hyv.symm).mp (hsame u v hu hv)
  · rintro hquery u v rfl rfl
    obtain ⟨x, hxs, hxu⟩ := Option.map_eq_some_iff.mp hx
    obtain ⟨y, hys, hyv⟩ := Option.map_eq_some_iff.mp hy
    exact (h x y u v hxs hys hxu hyv).mpr (hquery x y hxs hys)

include hx hy h in
theorem same_field_iff {key : String} : SameField (fun _ => False) key u? v? ↔
    x?.isSome = y?.isSome ∧ ∀ x y, key ≠ "query_location" → x? = some x → y? = some y →
      x.SameQuery y := by
  rw [SameField, isSome_eq_of_map hx, isSome_eq_of_map hy]
  simp only [not_false_eq_true, forall_const]
  refine and_congr_right fun _ => ?_
  by_cases hkey : key = "query_location"
  · simp [hkey]
  · simp only [ne_eq, hkey, not_false_eq_true, forall_const]
    exact same_values_iff hx hy h

end

theorem same_array_iff {xs ys us vs : List Node} (hxs : xs.map withoutLiterals = us.map .ok)
    (hys : ys.map withoutLiterals = vs.map .ok)
    (h : ∀ x ∈ xs, ∀ y ∈ ys, ∀ u v, withoutLiterals x = .ok u → withoutLiterals y = .ok v →
      (u.Same v ↔ x.SameQuery y)) :
    (Node.array us).Same (.array vs) ↔ (Node.array xs).SameQuery (.array ys) := by
  have hlength {xs us : List Node} (h : xs.map withoutLiterals = us.map .ok) :
      us.length = xs.length := by simpa using (congrArg List.length h).symm
  have hitem {xs us : List Node} (h : xs.map withoutLiterals = us.map .ok) (i : Nat) :
      xs[i]?.map withoutLiterals = us[i]?.map .ok := by
    simpa using congrArg (fun zs : List (Except Fault Node) => zs[i]?) h
  rw [Node.Same, sameBut_array_iff, sameQuery_array_iff, hlength hxs, hlength hys]
  refine and_congr_right fun _ => forall_congr' fun i => ?_
  exact same_values_iff (hitem hxs i) (hitem hys i) fun x y u v hx hy =>
    h x (List.mem_of_getElem? hx) y (List.mem_of_getElem? hy) u v

/-- With placeholders in place of literals, trees are the same if they are the same query. -/
theorem withoutLiterals_same_iff (a b : Node) {r s : Node} (ha : withoutLiterals a = .ok r)
    (hb : withoutLiterals b = .ok s) : r.Same s ↔ a.SameQuery b := by
  -- Either side settles whether the trees are constants, and which shape they have.
  by_cases hkind : a.isConstant = b.isConstant ∧ a.shape = b.shape
  · obtain ⟨hconstant, hshape⟩ := hkind
    by_cases hac : a.isConstant = true
    · have hbc : b.isConstant = true := hconstant ▸ hac
      rw [withoutLiterals_constant hac] at ha
      rw [withoutLiterals_constant hbc] at hb
      rw [canonicalConstant_same_iff ha hb, sameQuery_constant_iff hac hbc]
    · match a with
      | .null | .bool _ | .number _ | .string _ =>
        have hscalar : b.isScalar = true := by cases b <;> first | rfl | contradiction
        rw [withoutLiterals_scalar rfl ha, withoutLiterals_scalar hscalar hb,
          sameQuery_scalar_iff rfl]
      | .array xs =>
        cases b with
        | array ys =>
          obtain ⟨us, rfl, hus⟩ := withoutLiterals_array ha
          obtain ⟨vs, rfl, hvs⟩ := withoutLiterals_array hb
          refine same_array_iff hus hvs fun x hx y _ u v hu hv => ?_
          have := sizeOf_lt_of_mem_items hx
          exact withoutLiterals_same_iff x y hu hv
        | _ => contradiction
      | .object fs =>
        cases b with
        | object gs =>
          have hfs := eq_false_of_ne_true hac
          have hgs := hconstant ▸ hfs
          obtain ⟨us, rfl, -, hus⟩ := withoutLiterals_object hfs ha
          obtain ⟨vs, rfl, -, hvs⟩ := withoutLiterals_object hgs hb
          rw [Node.Same, sameBut_object_iff, sameQuery_object_iff hfs hgs]
          refine forall_congr' fun key => same_field_iff (hus key) (hvs key) ?_
          intro x y u v hx _ hu hv
          have := sizeOf_lt_of_mem_fields (Fields.mem_of_get? hx)
          exact withoutLiterals_same_iff x y hu hv
        | _ => contradiction
  · constructor
    · intro h
      have hta := withoutLiterals_sameTag ha
      have htb := withoutLiterals_sameTag hb
      refine absurd ⟨?_, ?_⟩ hkind
      · rw [← hta.isConstant_eq, ← htb.isConstant_eq, h.sameTag.isConstant_eq]
      · rw [← hta.shape, ← htb.shape, h.sameTag.shape]
    · intro h
      exact absurd ⟨h.isConstant_eq, h.shape_eq⟩ hkind
termination_by sizeOf a
decreasing_by all_goals assumption

/-! ### Distinct keys -/

theorem Placed.distinctKeys {payload placed : Node} {l : Literal} (h : Placed payload placed l)
    (hkeys : payload.DistinctKeys) : placed.DistinctKeys := by
  cases h with
  | text value => exact hkeys.withField (distinctKeys_of_isScalar rfl) value
  | integer value => exact hkeys.withField (distinctKeys_of_isScalar rfl) value
  | decimal typeField infoField width scale value infoPlaced typePlaced =>
    have htype := hkeys.field? typeField
    have hwide := (htype.field? infoField).withField (distinctKeys_of_isScalar rfl) width
    have hscaled := hwide.withField (distinctKeys_of_isScalar rfl) scale
    have hvalued := hkeys.withField (distinctKeys_of_isScalar rfl) value
    exact hvalued.withField (htype.withField hscaled infoPlaced) typePlaced

theorem distinctKeys_of_canonicalConstant {a r : Node} (ha : a.DistinctKeys)
    (hr : canonicalConstant a = .ok r) : r.DistinctKeys := by
  rcases canonicalConstant_eq_ok hr with ⟨-, rfl⟩ | ⟨l, payload, placed, -, hvalue, hplaced, hr⟩
  · exact ha
  · exact ha.withField (hplaced.distinctKeys (ha.field? hvalue)) hr

theorem distinctKeys_of_withoutLiterals (a : Node) {r : Node} (ha : a.DistinctKeys)
    (hr : withoutLiterals a = .ok r) : r.DistinctKeys := by
  induction a using replaceInduction Node.isConstant generalizing r with
  | replaced a hconstant =>
    rw [withoutLiterals_constant hconstant] at hr
    exact distinctKeys_of_canonicalConstant ha hr
  | scalar a _ hscalar =>
    rw [withoutLiterals_scalar hscalar hr]
    exact ha
  | array xs _ ih =>
    obtain ⟨us, rfl, hus⟩ := withoutLiterals_array hr
    refine distinctKeys_array_iff.mpr fun u hu => ?_
    have hmem : .ok u ∈ xs.map withoutLiterals := hus ▸ List.mem_map_of_mem hu
    obtain ⟨x, hx, hxu⟩ := List.mem_map.mp hmem
    exact ih x hx (distinctKeys_array_iff.mp ha x hx) hxu
  | object fs hconstant ih =>
    obtain ⟨gs, rfl, hkeys, hget⟩ := withoutLiterals_object hconstant hr
    obtain ⟨hfs, hvalues⟩ := distinctKeys_object_iff.mp ha
    refine distinctKeys_object_iff.mpr ⟨hkeys ▸ hfs, fun e he => ?_⟩
    have hget := hget e.1
    rw [(Fields.get?_eq_some_iff (hkeys ▸ hfs)).mpr he] at hget
    obtain ⟨x, hx, hxe⟩ := Option.map_eq_some_iff.mp hget
    have hmem := Fields.mem_of_get? hx
    exact ih _ hmem (hvalues _ hmem) hxe

/-- Canonical texts are equal if and only if the trees are the same query. -/
theorem canonicalize_kernel {a b r s : Node} (ha : a.DistinctKeys) (hb : b.DistinctKeys)
    (hr : canonicalize a = .ok r) (hs : canonicalize b = .ok s) :
    r.toCanonicalJson = s.toCanonicalJson ↔ a.SameQuery b := by
  obtain ⟨u, hu, rfl⟩ := map_eq_ok.mp hr
  obtain ⟨v, hv, rfl⟩ := map_eq_ok.mp hs
  rw [toCanonicalJson_clearPositions_eq_iff (distinctKeys_of_withoutLiterals a ha hu)
    (distinctKeys_of_withoutLiterals b hb hv)]
  exact withoutLiterals_same_iff a b hu hv

theorem fingerprint_eq_ok {n : Node} {d : String} (h : fingerprint n = .ok d) :
    ∃ r, canonicalize n = .ok r ∧ d = sha256 r.toCanonicalJson := by
  obtain ⟨_, -, h⟩ := bind_eq_ok.mp h
  obtain ⟨r, hr, heq⟩ := bind_eq_ok.mp h
  exact ⟨r, hr, (Except.ok.inj heq).symm⟩

/-- Fingerprints are digests of canonical texts, which are equal if and only if the trees are the
same query. So the same query has the same fingerprint, and the fingerprints tell two queries apart
if the digest tells their texts apart. -/
theorem fingerprint_kernel {a b : Node} {d e : String} (ha : a.DistinctKeys)
    (hb : b.DistinctKeys) (hd : fingerprint a = .ok d) (he : fingerprint b = .ok e) :
    ∃ r s, canonicalize a = .ok r ∧ canonicalize b = .ok s ∧
      d = sha256 r.toCanonicalJson ∧ e = sha256 s.toCanonicalJson ∧
      (r.toCanonicalJson = s.toCanonicalJson ↔ a.SameQuery b) ∧
      (a.SameQuery b → d = e) ∧
      ((sha256 r.toCanonicalJson = sha256 s.toCanonicalJson →
        r.toCanonicalJson = s.toCanonicalJson) → (d = e ↔ a.SameQuery b)) := by
  obtain ⟨r, hr, rfl⟩ := fingerprint_eq_ok hd
  obtain ⟨s, hs, rfl⟩ := fingerprint_eq_ok he
  have hkernel := canonicalize_kernel ha hb hr hs
  have hsame : a.SameQuery b → sha256 r.toCanonicalJson = sha256 s.toCanonicalJson :=
    fun h => congrArg sha256 (hkernel.mpr h)
  exact ⟨r, s, hr, hs, rfl, rfl, hkernel, hsame, fun hinj =>
    ⟨fun heq => hkernel.mp (hinj heq), hsame⟩⟩

/-- A decimal constant that stands at `position` in the text of its query. -/
def decimalAt (position width scale value : UInt8) : Node :=
  .object [("class", .string "CONSTANT"), ("type", .string "VALUE_CONSTANT"),
    ("query_location", .number (.ofUInt8 position)),
    ("value", .object [("type", DataType.toTypeNode (.scalar (.decimal width scale))),
      ("is_null", .bool false), ("value", .number (.ofUInt8 value))])]

/-- A query with a decimal in its filter. -/
def decimalFilter : Node :=
  .object [("error", .bool false), ("where_clause", decimalAt 30 4 2 150)]

/-- The same query with another decimal at another position, and with its fields in another
order. -/
def movedDecimalFilter : Node :=
  .object [("where_clause", decimalAt 7 3 1 25), ("error", .bool false)]

theorem sameQuery_decimalFilter : decimalFilter.SameQuery movedDecimalFilter := by
  have hdecimal : (decimalAt 30 4 2 150).SameQuery (decimalAt 7 3 1 25) :=
    (canonicalize_kernel (by decide) (by decide) rfl rfl).mp rfl
  refine (sameQuery_object_iff rfl rfl).mpr fun key => ?_
  by_cases herror : "error" = key
  · subst herror
    exact ⟨rfl, fun v w _ hv hw => Option.some.inj hv ▸ Option.some.inj hw ▸ .bool false⟩
  by_cases hwhere : "where_clause" = key
  · subst hwhere
    exact ⟨rfl, fun v w _ hv hw => Option.some.inj hv ▸ Option.some.inj hw ▸ hdecimal⟩
  · simp [Fields.get?, herror, hwhere]

/-- Queries with other decimals have one fingerprint. -/
theorem fingerprint_kernel_decimals :
    decimalFilter.DistinctKeys ∧ movedDecimalFilter.DistinctKeys ∧
      decimalFilter.SameQuery movedDecimalFilter ∧
      ∃ d, fingerprint decimalFilter = .ok d ∧ fingerprint movedDecimalFilter = .ok d := by
  have hkeys : decimalFilter.DistinctKeys ∧ movedDecimalFilter.DistinctKeys := by decide
  obtain ⟨r, s, -, -, hd, he, -, heq, -⟩ := fingerprint_kernel hkeys.1 hkeys.2 rfl rfl
  exact ⟨hkeys.1, hkeys.2, sameQuery_decimalFilter, _, rfl,
    congrArg Except.ok (heq sameQuery_decimalFilter).symm⟩

end PartitionPruning
