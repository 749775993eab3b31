import PartitionPruning.Expr.Build
import PartitionPruning.Proofs.DataType.Schema

/-! The types in the schema of a statement. The column of a cast always has a field. The field has a
type, unless something that was read before the cast has left it without one: an earlier clause in
which the column stands without a cast, or an earlier cast to the untyped type. -/

namespace PartitionPruning

namespace DataType

theorem eq_untyped_of_grows {t : DataType} (h : Grows t untyped) : t = untyped := by
  cases h
  rfl

end DataType

namespace StructType

open DataType

variable {s s' : StructType} {path : List String} {type : DataType} {n : Node}

/-- The field at the path is untyped. -/
def IsUntyped (s : StructType) (path : List String) : Prop := (struct s).at? path = some untyped

theorem not_isUntyped_nil : ¬ IsUntyped s [] := by simp [IsUntyped, at?]

/-- The cast makes a field at the path that is untyped: the path is the one of its column or goes on
below it, to a field of the type that the column is cast to. -/
def CastsToUntyped (path : List String) (cast : Node) : Prop :=
  ∃ column, castColumn cast = .ok column ∧
    ∃ rest, path = column.1 ++ rest ∧ column.2.at? rest = some untyped

/-- The clause names the column without a cast of it. -/
def NamesUncast (path : List String) (n : Node) : Prop :=
  (∃ reference ∈ n.references, reference.columnNames = .ok path) ∧
    ∀ cast ∈ n.referenceCasts, ∀ column, castColumn cast = .ok column → column.1 ≠ path

/-- The clause makes a field at the path that is untyped. -/
def LeavesUntyped (path : List String) (n : Node) : Prop :=
  NamesUncast path n ∨ ∃ cast ∈ n.referenceCasts, CastsToUntyped path cast

/-! ### One column -/

theorem adds_of_addPath (h : addPath s path type = .ok s') : Adds type path s s' := by
  unfold addPath at h
  split at h
  · rename_i hadded
    obtain rfl := Except.ok.inj h
    exact adds_of_addWithin hadded
  · contradiction

/-- A field is untyped because it was or because of the type that it was added with. -/
theorem isUntyped_of_adds {other : List String} (h : Adds type path s s')
    (hother : IsUntyped s' other) :
    IsUntyped s other ∨ ∃ rest, other = path ++ rest ∧ type.at? rest = some untyped := by
  induction h generalizing other with
  | last name s =>
    cases other with
    | nil => exact absurd hother not_isUntyped_nil
    | cons next others =>
      rw [IsUntyped, at?_insert] at hother
      split at hother
      · rename_i hnext
        subst hnext
        cases hget : Fields.get? s name with
        | some t =>
          rw [hget] at hother
          exact Or.inl (Option.bind_eq_some_iff.mpr ⟨t, hget, hother⟩)
        | none =>
          rw [hget] at hother
          exact Or.inr ⟨others, rfl, hother⟩
      · exact Or.inl hother
  | @within name rest s inner inner' there below ih =>
    cases other with
    | nil => exact absurd hother not_isUntyped_nil
    | cons next others =>
      rw [IsUntyped, at?_insert] at hother
      split at hother
      · rename_i hnext
        subst hnext
        rcases ih hother with hold | ⟨further, rfl, hfurther⟩
        · have hothers : others ≠ [] := by
            rintro rfl
            exact not_isUntyped_nil hold
          exact Or.inl ((at?_of_structAt hothers there).trans hold)
        · exact Or.inr ⟨further, rfl, hfurther⟩
      · exact Or.inl hother

theorem addCast_eq_ok {cast : Node} : addCast s cast = .ok s' ↔
    ∃ column, castColumn cast = .ok column ∧ s.addPath column.1 column.2 = .ok s' :=
  bind_eq_ok

theorem addReference_eq_ok {reference : Node} : addReference s reference = .ok s' ↔
    ∃ path, reference.columnNames = .ok path ∧ s.addPath path untyped = .ok s' :=
  bind_eq_ok

theorem isUntyped_of_addCast {cast : Node} (h : addCast s cast = .ok s')
    (hpath : IsUntyped s' path) : IsUntyped s path ∨ CastsToUntyped path cast := by
  obtain ⟨column, hcolumn, hadd⟩ := addCast_eq_ok.mp h
  have hadds := adds_of_addPath hadd
  exact (isUntyped_of_adds hadds hpath).imp id fun hrest => ⟨column, hcolumn, hrest⟩

theorem isUntyped_of_addReference {reference : Node} (h : addReference s reference = .ok s')
    (hpath : IsUntyped s' path) : IsUntyped s path ∨ reference.columnNames = .ok path := by
  obtain ⟨column, hcolumn, hadd⟩ := addReference_eq_ok.mp h
  have hadds := adds_of_addPath hadd
  refine (isUntyped_of_adds hadds hpath).imp id fun ⟨rest, hrest, huntyped⟩ => ?_
  -- An untyped column has no fields below its own path.
  cases rest with
  | nil => rw [hrest, List.append_nil, hcolumn]
  | cons next rest => contradiction

theorem isUntyped_of_addCasts {casts : List Node} (h : casts.foldlM addCast s = .ok s')
    (hpath : IsUntyped s' path) :
    IsUntyped s path ∨ ∃ cast ∈ casts, CastsToUntyped path cast :=
  exists_of_foldlM_eq_ok (P := (IsUntyped · path)) (fun _ _ _ => isUntyped_of_addCast) h hpath

theorem isUntyped_of_addReferences {references : List Node}
    (h : references.foldlM addReference s = .ok s') (hpath : IsUntyped s' path) :
    IsUntyped s path ∨ ∃ reference ∈ references, reference.columnNames = .ok path :=
  exists_of_foldlM_eq_ok (P := (IsUntyped · path)) (fun _ _ _ => isUntyped_of_addReference) h hpath

/-! ### Growth along a statement -/

theorem grows_of_foldlM {α : Type} {f : StructType → α → Except Fault StructType} {as : List α}
    (hf : ∀ a s s', f s a = .ok s' → Grows (.struct s) (.struct s'))
    (h : as.foldlM f s = .ok s') : Grows (.struct s) (.struct s') := by
  induction as generalizing s with
  | nil => exact Except.ok.inj h ▸ .refl _
  | cons a as ih =>
    obtain ⟨t, ha, has⟩ := foldlM_cons_eq_ok.mp h
    exact (hf a s t ha).trans (ih has)

theorem grows_of_addCast (cast : Node) (s s' : StructType) (h : addCast s cast = .ok s') :
    Grows (.struct s) (.struct s') := by
  obtain ⟨column, -, hadd⟩ := addCast_eq_ok.mp h
  exact (adds_of_addPath hadd).grows

theorem grows_of_addReference (reference : Node) (s s' : StructType)
    (h : addReference s reference = .ok s') : Grows (.struct s) (.struct s') := by
  obtain ⟨column, -, hadd⟩ := addReference_eq_ok.mp h
  exact (adds_of_addPath hadd).grows

/-- The columns of a clause are those of its casts, and then all of them or none. -/
theorem addColumns_eq_ok (h : addColumns s n = .ok s') :
    ∃ t, n.referenceCasts.foldlM addCast s = .ok t ∧
      (s' = t ∨ n.references.foldlM addReference t = .ok s') := by
  obtain ⟨t, hcasts, hreferences⟩ := bind_eq_ok.mp h
  refine ⟨t, hcasts, ?_⟩
  split at hreferences
  · exact Or.inl (Except.ok.inj hreferences).symm
  · exact Or.inr hreferences

theorem grows_of_addColumns (h : addColumns s n = .ok s') : Grows (.struct s) (.struct s') := by
  obtain ⟨t, hcasts, rfl | hreferences⟩ := addColumns_eq_ok h
  · exact grows_of_foldlM grows_of_addCast hcasts
  · exact (grows_of_foldlM grows_of_addCast hcasts).trans
      (grows_of_foldlM grows_of_addReference hreferences)

theorem grows_of_addClause {statement : Node} (clause : String) (s s' : StructType)
    (h : addClause statement s clause = .ok s') : Grows (.struct s) (.struct s') := by
  unfold addClause at h
  split at h
  · exact grows_of_addColumns h
  · exact Except.ok.inj h ▸ .refl _

theorem isUntyped_of_grows {t : DataType} (h : Grows (.struct s) (.struct s'))
    (hpath : (struct s).at? path = some t) (hs' : IsUntyped s' path) : t = untyped := by
  obtain ⟨u, hu, hgrows⟩ := h.exists_at? hpath
  obtain rfl := Option.some.inj (hu.symm.trans hs')
  exact eq_untyped_of_grows hgrows

/-! ### One clause -/

/-- The column of a cast has a field, which is untyped only if it already was, or else by an earlier
cast, or by the type of the cast. -/
theorem exists_at?_of_addCasts {earlier later : List Node} {cast : Node}
    (h : (earlier ++ cast :: later).foldlM addCast s = .ok s') :
    ∃ path type, castColumn cast = .ok (path, type) ∧
      ∃ found, (struct s').at? path = some found ∧
        (found = untyped → type = untyped ∨ IsUntyped s path ∨
          ∃ c ∈ earlier, CastsToUntyped path c) := by
  obtain ⟨before, hearlier, hrest⟩ := foldlM_append_eq_ok.mp h
  obtain ⟨behind, hcast, hlater⟩ := foldlM_cons_eq_ok.mp hrest
  obtain ⟨⟨path, type⟩, hcolumn, hadd⟩ := addCast_eq_ok.mp hcast
  have hpath := (adds_of_addPath hadd).at?_eq
  have hgrows : Grows (.struct behind) (.struct s') := grows_of_foldlM grows_of_addCast hlater
  obtain ⟨found, hfound, -⟩ := hgrows.exists_at? hpath
  refine ⟨path, type, hcolumn, found, hfound, ?_⟩
  rintro rfl
  have huntyped := isUntyped_of_grows hgrows hpath hfound
  cases hbefore : (struct before).at? path with
  | none =>
    rw [hbefore] at huntyped
    exact Or.inl huntyped
  | some t =>
    rw [hbefore] at huntyped
    obtain rfl : t = untyped := huntyped
    exact Or.inr (isUntyped_of_addCasts hearlier hbefore)

theorem isUntyped_of_addColumns (h : addColumns s n = .ok s') (hpath : IsUntyped s' path) :
    IsUntyped s path ∨ LeavesUntyped path n := by
  obtain ⟨t, hcasts, hreferences⟩ := addColumns_eq_ok h
  have hold (ht : IsUntyped t path) : IsUntyped s path ∨ LeavesUntyped path n :=
    (isUntyped_of_addCasts hcasts ht).imp id Or.inr
  rcases hreferences with rfl | hreferences
  · exact hold hpath
  · by_cases hcast : ∃ cast ∈ n.referenceCasts, ∃ column, castColumn cast = .ok column ∧
        column.1 = path
    · -- The casts have made the field, and no reference changes its type.
      obtain ⟨cast, hmem, column, hcolumn, rfl⟩ := hcast
      obtain ⟨earlier, later, hsplit⟩ := List.append_of_mem hmem
      rw [hsplit] at hcasts
      obtain ⟨path', type, hcolumn', found, hfound, -⟩ := exists_at?_of_addCasts hcasts
      obtain rfl := Except.ok.inj (hcolumn.symm.trans hcolumn')
      have hgrows := grows_of_foldlM grows_of_addReference hreferences
      obtain rfl := isUntyped_of_grows hgrows hfound hpath
      exact hold hfound
    · rcases isUntyped_of_addReferences hreferences hpath with ht | hreference
      · exact hold ht
      · exact Or.inr (Or.inl ⟨hreference, fun cast hmem column hcolumn heq =>
          hcast ⟨cast, hmem, column, hcolumn, heq⟩⟩)

theorem isUntyped_of_addClause {statement : Node} {clause : String}
    (h : addClause statement s clause = .ok s') (hpath : IsUntyped s' path) :
    IsUntyped s path ∨ ∃ n, statement.present? clause = some n ∧ LeavesUntyped path n := by
  unfold addClause at h
  split at h
  · rename_i n hn
    exact (isUntyped_of_addColumns h hpath).imp id fun hleaves => ⟨n, hn, hleaves⟩
  · obtain rfl := Except.ok.inj h
    exact Or.inl hpath

theorem isUntyped_of_addClauses {statement : Node} {before : List String}
    (h : before.foldlM (addClause statement) s = .ok s') (hpath : IsUntyped s' path) :
    IsUntyped s path ∨
      ∃ clause ∈ before, ∃ n, statement.present? clause = some n ∧ LeavesUntyped path n :=
  exists_of_foldlM_eq_ok (P := (IsUntyped · path)) (fun _ _ _ => isUntyped_of_addClause) h hpath

/-! ### A statement -/

/-- The column of every cast in a statement with a schema has a field there. The field is untyped
only if the column is cast to the untyped type, or if it already was untyped when the cast was read,
by a cast in front of it or by an earlier clause. -/
theorem exists_at?_of_infer {statement n cast : Node} {before after : List String}
    {clause : String} {earlier later : List Node} (h : infer statement = .ok s)
    (hclauses : clauses = before ++ clause :: after) (hn : statement.present? clause = some n)
    (hcasts : n.referenceCasts = earlier ++ cast :: later) :
    ∃ path type, castColumn cast = .ok (path, type) ∧
      ∃ found, (struct s).at? path = some found ∧
        (found = untyped → type = untyped ∨ (∃ c ∈ earlier, CastsToUntyped path c) ∨
          ∃ other ∈ before, ∃ m, statement.present? other = some m ∧ LeavesUntyped path m) := by
  rw [infer, hclauses] at h
  obtain ⟨start, hbefore, hrest⟩ := foldlM_append_eq_ok.mp h
  obtain ⟨behind, hclause, hafter⟩ := foldlM_cons_eq_ok.mp hrest
  simp only [addClause, hn] at hclause
  obtain ⟨middle, hmiddle, hreferences⟩ := addColumns_eq_ok hclause
  have hgrows : Grows (.struct middle) (.struct s) := by
    have hbehind : Grows (.struct middle) (.struct behind) := by
      rcases hreferences with rfl | hreferences
      · exact .refl _
      · exact grows_of_foldlM grows_of_addReference hreferences
    exact hbehind.trans (grows_of_foldlM grows_of_addClause hafter)
  rw [hcasts] at hmiddle
  obtain ⟨path, type, hcolumn, found, hfound, huntyped⟩ := exists_at?_of_addCasts hmiddle
  obtain ⟨last, hlast, -⟩ := hgrows.exists_at? hfound
  refine ⟨path, type, hcolumn, last, hlast, ?_⟩
  rintro rfl
  have hnone : ¬ IsUntyped [] path := by
    cases path <;> simp [IsUntyped, at?, Fields.get?]
  rcases huntyped (isUntyped_of_grows hgrows hfound hlast) with htype | hstart | hearlier
  · exact Or.inl htype
  · exact Or.inr (Or.inr ((isUntyped_of_addClauses hbefore hstart).resolve_left hnone))
  · exact Or.inr (Or.inl hearlier)

/-- The comparison of a column that is cast to an integer. -/
def castComparison : Node :=
  Build.comparison .equal (Build.cast (Build.reference ["a"]) "INTEGER") (Build.varchar "1")

theorem referenceCasts_castComparison :
    castComparison.referenceCasts = [Build.cast (Build.reference ["a"]) "INTEGER"] := by
  decide +kernel

/-- A statement that selects the column and compares it with a cast. -/
def selectsUncast : Node :=
  .object [("type", .string "SELECT_NODE"), ("select_list", .array [Build.reference ["a"]]),
    ("where_clause", castComparison)]

theorem infer_selectsUncast : infer selectsUncast = .ok [("a", untyped)] :=
  toOption_eq_some.mp (by decide +kernel)

theorem exists_at?_of_infer_selectsUncast :
    ∃ path type, castColumn (Build.cast (Build.reference ["a"]) "INTEGER") = .ok (path, type) ∧
      ∃ found, (struct [("a", untyped)]).at? path = some found ∧
        (found = untyped → type = untyped ∨ (∃ c ∈ [], CastsToUntyped path c) ∨
          ∃ other ∈ ["select_list"], ∃ m, selectsUncast.present? other = some m ∧
            LeavesUntyped path m) := by
  have hclauses : clauses = ["select_list"] ++ "where_clause" :: ["group_expressions"] := rfl
  exact exists_at?_of_infer infer_selectsUncast hclauses rfl referenceCasts_castComparison

/-- A column that is cast need not have a type: a clause that is read before the one of the cast may
name the column without it. -/
theorem not_forall_cast_typed :
    ¬ ∀ (statement n cast : Node) (clause : String) (s : StructType) (path : List String)
        (type : DataType), infer statement = .ok s → clause ∈ clauses →
      statement.present? clause = some n → cast ∈ n.referenceCasts →
      castColumn cast = .ok (path, type) → type ≠ untyped →
      ∃ found, (struct s).at? path = some found ∧ found ≠ untyped := by
  intro h
  have hmem : Build.cast (Build.reference ["a"]) "INTEGER" ∈ castComparison.referenceCasts := by
    rw [referenceCasts_castComparison]
    exact List.mem_singleton_self _
  have hcolumn : castColumn (Build.cast (Build.reference ["a"]) "INTEGER") =
      .ok (["a"], .scalar .integer) := toOption_eq_some.mp (by decide +kernel)
  obtain ⟨found, hfound, htyped⟩ := h selectsUncast castComparison _ "where_clause" _ _ _
    infer_selectsUncast (by decide) rfl hmem hcolumn (by decide)
  exact htyped (Option.some.inj hfound).symm

end StructType

end PartitionPruning
