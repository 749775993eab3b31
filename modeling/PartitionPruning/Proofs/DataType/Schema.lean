import PartitionPruning.DataType.Schema
import PartitionPruning.Proofs.DataType.Serialized
import PartitionPruning.Proofs.Tree.Fields

/-! Adding fields to a struct in place. The structs on the way to a field are made before it is
known whether another field is in the way, but nothing is in the way below a struct that was just
made: where adding fails, it has changed nothing. Where it does not fail, types only grow, and every
path goes on naming a field. -/

namespace PartitionPruning

namespace DataType

/-! ### Fields at paths -/

/-- The type of the field that a path names, through the fields of structs. -/
def at? : List String → DataType → Option DataType
  | [], t => some t
  | name :: rest, struct fs => (Fields.get? fs name).bind (at? rest)
  | _ :: _, _ => none

theorem at?_insert (fs : StructType) (name : String) (t : DataType) (other : String)
    (rest : List String) : (struct (Fields.insert fs name t)).at? (other :: rest) =
      if name = other then t.at? rest else (struct fs).at? (other :: rest) := by
  split
  · rename_i hother
    rw [← hother, at?, Fields.get?_insert_self, Option.bind_some]
  · rw [at?, Fields.get?_insert_of_ne fs t ‹_›, at?]

/-! ### Growth -/

/-- A type and one that it may become: an untyped field becomes a struct, and a struct has further
fields behind its own, which have grown themselves. -/
inductive Grows : DataType → DataType → Prop
  | refl (t : DataType) : Grows t t
  | untyped (fs : StructType) : Grows untyped (struct fs)
  | struct {fs gs : StructType} (names : Fields.keys fs <+: Fields.keys gs)
    (types : ∀ name t u, Fields.get? fs name = some t → Fields.get? gs name = some u → Grows t u) :
    Grows (struct fs) (struct gs)

theorem exists_get?_of_prefix {fs gs : StructType} (names : Fields.keys fs <+: Fields.keys gs)
    {name : String} {t : DataType} (h : Fields.get? fs name = some t) :
    ∃ u, Fields.get? gs name = some u := by
  have hmem : name ∈ Fields.keys fs := Fields.isSome_get?_iff.mp (by rw [h]; rfl)
  exact Option.isSome_iff_exists.mp (Fields.isSome_get?_iff.mpr (names.subset hmem))

theorem Grows.trans {t u v : DataType} (htu : Grows t u) (huv : Grows u v) : Grows t v := by
  induction htu generalizing v with
  | refl t => exact huv
  | untyped fs =>
    cases huv with
    | refl => exact .untyped fs
    | struct => exact .untyped _
  | @struct fs gs names types ih =>
    cases huv with
    | refl => exact .struct names types
    | @struct _ hs names' types' =>
      refine .struct (names.trans names') fun name t v ht hv => ?_
      obtain ⟨u, hu⟩ := exists_get?_of_prefix names ht
      exact ih name t u ht hu (types' name u v hu hv)

/-- A path goes on naming a field. -/
theorem Grows.exists_at? {t u v : DataType} {path : List String} (h : Grows t u)
    (hv : t.at? path = some v) : ∃ w, u.at? path = some w ∧ Grows v w := by
  induction path generalizing t u with
  | nil =>
    obtain rfl := Option.some.inj hv
    exact ⟨u, rfl, h⟩
  | cons name path ih =>
    cases h with
    | refl => exact ⟨v, hv, .refl v⟩
    | untyped => contradiction
    | @struct fs gs names types =>
      obtain ⟨t, ht, hv⟩ := Option.bind_eq_some_iff.mp hv
      obtain ⟨u, hu⟩ := exists_get?_of_prefix names ht
      obtain ⟨w, hw, hgrows⟩ := ih (types name t u ht hu) hv
      exact ⟨w, Option.bind_eq_some_iff.mpr ⟨u, hu, hw⟩, hgrows⟩

/-- A field written in the place of another, or behind all of them. -/
theorem Grows.insert {fs : StructType} {name : String} {u : DataType}
    (h : ∀ t, Fields.get? fs name = some t → Grows t u) :
    Grows (.struct fs) (.struct (Fields.insert fs name u)) := by
  refine .struct ?_ fun other t v ht hv => ?_
  · rw [Fields.keys_insert]
    split
    · exact List.prefix_refl _
    · exact List.prefix_append _ _
  · by_cases hother : name = other
    · subst hother
      rw [Fields.get?_insert_self] at hv
      exact Option.some.inj hv ▸ h t ht
    · rw [Fields.get?_insert_of_ne fs u hother, ht] at hv
      exact Option.some.inj hv ▸ .refl t

/-! ### Distinct names -/

/-- No struct of the type, at any level, has a name twice. -/
inductive DistinctNames : DataType → Prop
  | scalar (t : ScalarType) : DistinctNames (scalar t)
  | list {t : DataType} (element : DistinctNames t) : DistinctNames (list t)
  | map {k v : DataType} (key : DistinctNames k) (value : DistinctNames v) : DistinctNames (map k v)
  | struct {fs : StructType} (names : (Fields.keys fs).Nodup)
    (types : ∀ f ∈ fs, DistinctNames f.2) : DistinctNames (struct fs)

theorem DistinctNames.of_get? {fs : StructType} {name : String} {t : DataType}
    (hfs : DistinctNames (.struct fs)) (h : Fields.get? fs name = some t) : DistinctNames t := by
  cases hfs with
  | struct names types => exact types _ (Fields.mem_of_get? h)

theorem DistinctNames.insert {fs : StructType} {t : DataType} (hfs : DistinctNames (.struct fs))
    (name : String) (ht : DistinctNames t) : DistinctNames (.struct (Fields.insert fs name t)) := by
  cases hfs with
  | struct names types =>
    refine .struct (Fields.nodup_keys_insert names name t) fun f hf => ?_
    rcases Fields.mem_insert hf with rfl | hf
    · exact ht
    · exact types f hf

end DataType

namespace StructType

open DataType

variable {s s' inner : StructType} {name : String} {whole path rest : List String}
  {type : DataType}

/-! ### One step of a path -/

theorem getOrAdd_eq (s : StructType) (name : String) (type : DataType) :
    getOrAdd s name type = Fields.insert s name ((Fields.get? s name).getD type) := by
  cases hget : Fields.get? s name with
  | some t => simp [getOrAdd, Fields.contains, hget, Fields.insert_of_get? hget]
  | none =>
    have hmem : name ∉ Fields.keys s := by
      rw [← Fields.isSome_get?_iff, hget]
      decide
    simp [getOrAdd, Fields.contains, hget, Fields.insert_of_not_mem type hmem]

theorem structAt_eq_ok (h : structAt s name = .ok inner) :
    Fields.get? s name = some (.struct inner) ∨
      inner = [] ∧ (Fields.get? s name = none ∨ Fields.get? s name = some untyped) := by
  unfold structAt at h
  split at h
  · exact Or.inr ⟨(Except.ok.inj h).symm, Or.inl ‹_›⟩
  · exact Or.inr ⟨(Except.ok.inj h).symm, Or.inr ‹_›⟩
  · exact Or.inl (Except.ok.inj h ▸ ‹_›)
  · contradiction

/-- A path with more than one name goes on in the struct at its first name. -/
theorem addWithin_cons (hrest : rest ≠ []) (h : structAt s name = .ok inner) :
    addWithin whole type (name :: rest) s = inField s name (addWithin whole type rest inner) := by
  cases rest with
  | nil => contradiction
  | cons next rest => simp [addWithin, h]

theorem addWithin_cons_of_error {other : DataType} (hrest : rest ≠ [])
    (h : structAt s name = .error other) :
    addWithin whole type (name :: rest) s =
      .error (.unsupported (.nestedField name other.sql (joinWith "." whole))) s := by
  cases rest with
  | nil => contradiction
  | cons next rest => simp [addWithin, h]

/-! ### Faults change nothing -/

/-- Nothing is in the way in a struct without fields. -/
theorem exists_addWithin_nil (hpath : path ≠ []) :
    ∃ s', addWithin whole type path [] = .ok () s' := by
  induction path with
  | nil => contradiction
  | cons name rest ih =>
    by_cases hrest : rest = []
    · subst hrest
      exact ⟨_, rfl⟩
    · obtain ⟨inner', hinner⟩ := ih hrest
      refine ⟨Fields.insert [] name (.struct inner'), ?_⟩
      rw [addWithin_cons hrest rfl, hinner]
      rfl

theorem eq_of_addWithin_error {fault : Fault} (h : addWithin whole type path s = .error fault s') :
    s' = s := by
  induction path generalizing s s' with
  | nil =>
    cases h
    rfl
  | cons name rest ih =>
    by_cases hrest : rest = []
    · subst hrest
      contradiction
    · cases hstruct : structAt s name with
      | error other =>
        rw [addWithin_cons_of_error hrest hstruct] at h
        cases h
        rfl
      | ok inner =>
        rw [addWithin_cons hrest hstruct] at h
        cases hinner : addWithin whole type rest inner with
        | ok _ inner' =>
          rw [hinner] at h
          contradiction
        | error cause left =>
          rw [hinner] at h
          cases h
          obtain rfl := ih hinner
          rcases structAt_eq_ok hstruct with hget | ⟨rfl, -⟩
          · exact Fields.insert_of_get? hget
          · -- A struct that was made on the way has nothing in it that could be in the way.
            obtain ⟨made, hmade⟩ : ∃ made, addWithin whole type rest [] = .ok () made :=
              exists_addWithin_nil hrest
            rw [hmade] at hinner
            contradiction

/-! ### Fields that are added -/

/-- What a struct becomes where a field is added at a path. The last name of the path keeps its type
or gets the one that is given, and at every other name the struct there is the one that changes. -/
inductive Adds (type : DataType) : List String → StructType → StructType → Prop
  | last (name : String) (s : StructType) :
    Adds type [name] s (Fields.insert s name ((Fields.get? s name).getD type))
  | within {name : String} {rest : List String} {s inner inner' : StructType}
    (there : structAt s name = .ok inner) (below : Adds type rest inner inner') :
    Adds type (name :: rest) s (Fields.insert s name (.struct inner'))

theorem Adds.ne_nil (h : Adds type path s s') : path ≠ [] := by
  cases h <;> exact List.cons_ne_nil _ _

theorem adds_of_addWithin (h : addWithin whole type path s = .ok () s') :
    Adds type path s s' := by
  induction path generalizing s s' with
  | nil => contradiction
  | cons name rest ih =>
    by_cases hrest : rest = []
    · subst hrest
      cases h
      exact getOrAdd_eq s name type ▸ .last name s
    · cases hstruct : structAt s name with
      | error other =>
        rw [addWithin_cons_of_error hrest hstruct] at h
        contradiction
      | ok inner =>
        rw [addWithin_cons hrest hstruct] at h
        cases hinner : addWithin whole type rest inner with
        | error fault left =>
          rw [hinner] at h
          contradiction
        | ok _ inner' =>
          rw [hinner] at h
          cases h
          exact .within hstruct (ih hinner)

theorem at?_of_structAt (hrest : rest ≠ []) (h : structAt s name = .ok inner) :
    (struct s).at? (name :: rest) = (struct inner).at? rest := by
  cases rest with
  | nil => contradiction
  | cons next rest =>
    rcases structAt_eq_ok h with hget | ⟨rfl, hget | hget⟩ <;> simp [at?, hget, Fields.get?]

/-- The path names a field of the type that it had, and else of the type that is given. -/
theorem Adds.at?_eq (h : Adds type path s s') :
    (struct s').at? path = some (((struct s).at? path).getD type) := by
  induction h with
  | last name s =>
    rw [at?_insert, if_pos rfl]
    simp [at?]
  | within there below ih => rw [at?_insert, if_pos rfl, ih, at?_of_structAt below.ne_nil there]

theorem Adds.grows (h : Adds type path s s') : Grows (.struct s) (.struct s') := by
  induction h with
  | last name s =>
    refine .insert fun t ht => ?_
    rw [ht]
    exact .refl t
  | within there below ih =>
    refine .insert fun t ht => ?_
    rcases structAt_eq_ok there with hget | ⟨-, hget | hget⟩
    · obtain rfl := Option.some.inj (ht.symm.trans hget)
      exact ih
    · simp [hget] at ht
    · obtain rfl := Option.some.inj (ht.symm.trans hget)
      exact .untyped _

theorem Adds.distinctNames (h : Adds type path s s') (ht : DistinctNames type)
    (hs : DistinctNames (.struct s)) : DistinctNames (.struct s') := by
  induction h with
  | last name s =>
    refine hs.insert name ?_
    cases hget : Fields.get? s name with
    | some t => exact hs.of_get? hget
    | none => exact ht
  | within there below ih =>
    refine hs.insert _ (ih ?_)
    rcases structAt_eq_ok there with hget | ⟨rfl, -⟩
    · exact hs.of_get? hget
    · exact .struct List.nodup_nil (by simp)

/-! ### One column after the other -/

/-- The struct that is left behind, also by a fault. -/
def left : EStateM.Result Fault StructType Unit → StructType
  | .ok _ s => s
  | .error _ s => s

/-- The struct after columns were added to it, those that ended in a fault among them. -/
def addPaths (columns : List (List String × DataType)) (s : StructType) : StructType :=
  columns.foldl (fun s column => left (addPathInPlace column.1 column.2 s)) s

theorem addPaths_append (columns later : List (List String × DataType)) (s : StructType) :
    addPaths (columns ++ later) s = addPaths later (addPaths columns s) :=
  List.foldl_append

theorem grows_addPath (path : List String) (type : DataType) (s : StructType) :
    Grows (.struct s) (.struct (left (addPathInPlace path type s))) := by
  cases h : addPathInPlace path type s with
  | ok _ s' => exact (adds_of_addWithin h).grows
  | error fault s' => exact eq_of_addWithin_error h ▸ .refl _

theorem grows_addPaths (columns : List (List String × DataType)) (s : StructType) :
    Grows (.struct s) (.struct (addPaths columns s)) := by
  induction columns generalizing s with
  | nil => exact .refl _
  | cons column columns ih => exact (grows_addPath column.1 column.2 s).trans (ih _)

theorem distinctNames_addPath (path : List String) (hs : DistinctNames (.struct s))
    (ht : DistinctNames type) :
    DistinctNames (.struct (left (addPathInPlace path type s))) := by
  cases h : addPathInPlace path type s with
  | ok _ s' => exact (adds_of_addWithin h).distinctNames ht hs
  | error fault s' => exact eq_of_addWithin_error h ▸ hs

theorem distinctNames_addPaths {columns : List (List String × DataType)}
    (hcolumns : ∀ column ∈ columns, DistinctNames column.2) (hs : DistinctNames (.struct s)) :
    DistinctNames (.struct (addPaths columns s)) := by
  induction columns generalizing s with
  | nil => exact hs
  | cons column columns ih =>
    obtain ⟨hcolumn, hlater⟩ := List.forall_mem_cons.mp hcolumns
    exact ih hlater (distinctNames_addPath column.1 hs hcolumn)

/-- A column that cannot be added leaves the struct as it was. Columns that are added one after the
other to a struct without fields keep the names distinct at every level; one that has been added
names a field, of the type that it had if there was one; and whatever columns come later, a path
that names a field goes on naming one, whose type has at most grown. -/
theorem addPathInPlace_grows :
    (∀ (s s' : StructType) path type fault,
      addPathInPlace path type s = .error fault s' → s' = s) ∧
    ∀ columns : List (List String × DataType), (∀ column ∈ columns, DistinctNames column.2) →
      DistinctNames (.struct (addPaths columns [])) ∧
      (∀ path type s', addPathInPlace path type (addPaths columns []) = .ok () s' →
        path ≠ [] ∧ (struct s').at? path =
          some (((struct (addPaths columns [])).at? path).getD type)) ∧
      ∀ later path found, (struct (addPaths columns [])).at? path = some found →
        ∃ grown, (struct (addPaths (columns ++ later) [])).at? path = some grown ∧
          Grows found grown := by
  refine ⟨fun s s' path type fault => eq_of_addWithin_error, fun columns hcolumns => ⟨?_, ?_, ?_⟩⟩
  · exact distinctNames_addPaths hcolumns (.struct List.nodup_nil (by simp))
  · intro path type s' h
    exact ⟨(adds_of_addWithin h).ne_nil, (adds_of_addWithin h).at?_eq⟩
  · intro later path found hfound
    rw [addPaths_append]
    exact (grows_addPaths later _).exists_at? hfound

theorem addPathInPlace_grows_untyped :
    (∃ fault, addPathInPlace ["c", "x", "y"] (.scalar .bigInt)
      [("c", .struct [("x", .scalar .integer)])] =
        .error fault [("c", .struct [("x", .scalar .integer)])]) ∧
    DistinctNames (.struct (addPaths [(["c"], untyped)] [])) ∧
    addPathInPlace ["c", "x"] (.scalar .integer) (addPaths [(["c"], untyped)] []) =
      .ok () [("c", .struct [("x", .scalar .integer)])] ∧
    (struct [("c", .struct [("x", .scalar .integer)])]).at? ["c", "x"] = some (.scalar .integer) ∧
    ∃ grown, (struct (addPaths [(["c"], untyped), (["c", "x"], .scalar .integer)] [])).at? ["c"] =
      some grown ∧ Grows untyped grown := by
  obtain ⟨hfault, hcolumns⟩ := addPathInPlace_grows
  obtain ⟨hnames, hpath, hlater⟩ :=
    hcolumns [(["c"], untyped)] (List.forall_mem_singleton.mpr (.scalar .null))
  refine ⟨?_, hnames, rfl, (hpath ["c", "x"] (.scalar .integer) _ rfl).2,
    hlater [(["c", "x"], .scalar .integer)] ["c"] untyped rfl⟩
  cases h : addPathInPlace ["c", "x", "y"] (.scalar .bigInt)
      [("c", .struct [("x", .scalar .integer)])] with
  | ok _ s' => contradiction
  | error fault s' => exact ⟨fault, by rw [hfault _ _ _ _ _ h]⟩

end StructType

end PartitionPruning
