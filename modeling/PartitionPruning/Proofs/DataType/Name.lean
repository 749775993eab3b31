import PartitionPruning.DataType.Name
import PartitionPruning.Proofs.DataType.Serialized
import PartitionPruning.Proofs.Text.Case
import PartitionPruning.Proofs.Text.Split
import PartitionPruning.Proofs.Tree.Fields

/-! SQL names of types are read back, in any letter case and with white space around them and before
their brackets. Maps and structs have no name that is read, and neither have lists of them. -/

namespace PartitionPruning

/-! ### White space around a name -/

theorem plainName_eq (cs : List Char) : plainName cs = trimBlanks (cs.map Char.toUpper) := by
  rw [plainName, trimBlanks, trimBlanks, skipBlanks_map_toUpper, ← List.map_reverse,
    skipBlanks_map_toUpper, List.map_reverse]

theorem plainName_blanks_append {blanks : List Char} (h : ∀ c ∈ blanks, isBlank c = true)
    (cs : List Char) : plainName (blanks ++ cs) = plainName cs := by
  rw [plainName, plainName, trimBlanks, trimBlanks, skipBlanks_blanks_append h]

theorem plainName_append_blanks {blanks : List Char} (h : ∀ c ∈ blanks, isBlank c = true)
    (cs : List Char) : plainName (cs ++ blanks) = plainName cs := by
  have hback : skipBlanks (skipBlanks (cs ++ blanks)).reverse =
      skipBlanks (skipBlanks cs).reverse := by
    rcases skipBlanks_append_cases cs blanks with ⟨hnil, heq⟩ | heq
    · have hblanks := skipBlanks_blanks_append h []
      rw [List.append_nil] at hblanks
      rw [heq, hblanks, hnil]
      rfl
    · rw [heq, List.reverse_append, skipBlanks_blanks_append]
      simpa using h
  rw [plainName, plainName, trimBlanks, trimBlanks, hback]

theorem plainName_of_upper {cs ds : List Char}
    (h : cs.map Char.toUpper = ds.map Char.toUpper) : plainName cs = plainName ds := by
  rw [plainName_eq, plainName_eq, h]

theorem plainName_skipBlanks (cs : List Char) : plainName (skipBlanks cs) = plainName cs := by
  have hcs : cs.takeWhile isBlank ++ skipBlanks cs = cs := List.takeWhile_append_dropWhile
  rw [← plainName_blanks_append (List.all_eq_true.mp List.all_takeWhile) (skipBlanks cs), hcs]

theorem plainName_trimBlanks (cs : List Char) : plainName (trimBlanks cs) = plainName cs := by
  have hback : (skipBlanks cs).reverse.takeWhile isBlank ++ (trimBlanks cs).reverse =
      (skipBlanks cs).reverse := by
    rw [trimBlanks, List.reverse_reverse]
    exact List.takeWhile_append_dropWhile
  have hfront : trimBlanks cs ++ ((skipBlanks cs).reverse.takeWhile isBlank).reverse =
      skipBlanks cs := by
    rw [← List.reverse_inj, List.reverse_append, List.reverse_reverse, hback]
  have hblank : ∀ c ∈ ((skipBlanks cs).reverse.takeWhile isBlank).reverse, isBlank c = true :=
    fun c hc => List.all_eq_true.mp List.all_takeWhile c (List.mem_reverse.mp hc)
  rw [← plainName_append_blanks hblank (trimBlanks cs), hfront, plainName_skipBlanks]

theorem plainName_map_toUpper (cs : List Char) :
    plainName (cs.map Char.toUpper) = plainName cs := by
  refine plainName_of_upper ?_
  rw [List.map_map]
  exact List.map_congr_left fun c _ => toUpper_toUpper c

theorem plainName_brackets (cs : List Char) :
    plainName (cs ++ ['[', ']']) = (skipBlanks cs).map Char.toUpper ++ ['[', ']'] := by
  have hfront : skipBlanks (cs ++ ['[', ']']) = skipBlanks cs ++ ['[', ']'] := by
    rcases skipBlanks_append_cases cs ['[', ']'] with ⟨hnil, heq⟩ | heq
    · rw [heq, hnil]
      rfl
    · exact heq
  have hback : skipBlanks (['[', ']'].reverse ++ (skipBlanks cs).reverse) =
      ['[', ']'].reverse ++ (skipBlanks cs).reverse :=
    skipBlanks_append _ (by simp [isBlank]) (by decide)
  rw [plainName, trimBlanks, hfront, List.reverse_append, hback, ← List.reverse_append,
    List.reverse_reverse]
  simp

theorem listElementName?_brackets (cs : List Char) :
    listElementName? (cs ++ ['[', ']']) = some cs := by
  simp [listElementName?]

/-! ### Names with parameters -/

theorem plainName_eq_self {cs : List Char} (hupper : ∀ c ∈ cs, c.toUpper = c)
    (hblank : ∀ c ∈ cs, isBlank c = false) : plainName cs = cs := by
  rw [plainName, trimBlanks_eq_self hblank, List.map_congr_left hupper, List.map_id']

/-- The name of a decimal type. -/
def decimalName (width scale : Nat) : List Char :=
  ['D', 'E', 'C', 'I', 'M', 'A', 'L', '('] ++
    (decimalDigits width ++ ',' :: (decimalDigits scale ++ [')']))

theorem forall_mem_decimalName {P : Char → Prop}
    (marks : ∀ c ∈ ['D', 'E', 'C', 'I', 'M', 'A', 'L', '(', ',', ')'], P c)
    (digit : ∀ c, c.isDigit = true → P c) (width scale : Nat) :
    ∀ c ∈ decimalName width scale, P c := by
  have hdigits (n : Nat) : ∀ c ∈ decimalDigits n, P c :=
    fun c hc => digit c (isDigit_of_mem_decimalDigits hc)
  intro c hc
  simp only [decimalName, List.mem_append, List.mem_cons] at hc
  grind

theorem plainName_decimalName (width scale : Nat) :
    plainName (decimalName width scale) = decimalName width scale :=
  plainName_eq_self
    (forall_mem_decimalName (by simp) (fun _ => toUpper_of_isDigit) width scale)
    (forall_mem_decimalName (by simp [isBlank]) (fun _ => isBlank_of_isDigit) width scale)

theorem readParameter?_decimalDigits (n : Nat) {c : Char} (rest : List Char)
    (hdigit : c.isDigit = false) (hblank : isBlank c = false) :
    readParameter? (decimalDigits n ++ c :: rest) = some (decimalDigits n, c :: rest) := by
  have hstart : skipBlanks (decimalDigits n ++ c :: rest) = decimalDigits n ++ c :: rest :=
    skipBlanks_append _ (fun _ h => isBlank_of_isDigit (isDigit_of_mem_decimalDigits h))
      (decimalDigits_ne_nil n)
  have hspan : spanDigits (decimalDigits n ++ c :: rest) = (decimalDigits n, c :: rest) :=
    spanDigits_append (fun _ => isDigit_of_mem_decimalDigits) (by simpa using hdigit)
  have hrest : skipBlanks (c :: rest) = c :: rest := skipBlanks_eq_self (by simpa using hblank)
  rw [readParameter?, hstart, hspan]
  simp only [if_neg (decimalDigits_ne_nil n), hrest]

theorem readDecimalName?_decimalName (width scale : Nat) :
    readDecimalName? (decimalName width scale) =
      some (decimalDigits width, some (decimalDigits scale)) := by
  have hword : afterWord? "DECIMAL" (decimalName width scale) =
      some ('(' :: (decimalDigits width ++ ',' :: (decimalDigits scale ++ [')']))) :=
    afterPrefix?_append ['D', 'E', 'C', 'I', 'M', 'A', 'L'] _
  have hopen (cs : List Char) : afterWord? "(" (skipBlanks ('(' :: cs)) = some cs :=
    afterPrefix?_append ['('] cs
  have hwidth := readParameter?_decimalDigits width (decimalDigits scale ++ [')'])
    (c := ',') (by decide) (by decide)
  have hscale := readParameter?_decimalDigits scale [] (c := ')') (by decide) (by decide)
  simp [readDecimalName?, hword, hopen, hwidth, hscale]

namespace DataType

/-! ### Names that are read -/

theorem ofName_of_list {name element : List Char}
    (h : listElementName? (plainName name) = some element) :
    ofName name = list <$> ofName element := by
  rw [ofName]
  split
  · rename_i other hother
    obtain rfl := Option.some.inj (hother.symm.trans h)
    rfl
  · rename_i hnone
    rw [hnone] at h
    contradiction

theorem ofName_of_scalar {name : List Char} (h : listElementName? (plainName name) = none) :
    ofName name = match ofScalarName (plainName name) with
      | some t => scalar <$> t
      | none => .error (.unsupported (.dataType (.ofList (trimBlanks name)))) := by
  rw [ofName]
  split
  · rename_i hsome
    rw [hsome] at h
    contradiction
  · rfl

/-- Only the plain form of a name counts. -/
theorem ofName_congr {a b : List Char} (h : plainName a = plainName b) {t : DataType}
    (ha : ofName a = .ok t) : ofName b = .ok t := by
  cases helement : listElementName? (plainName a) with
  | some element =>
    rw [ofName_of_list (h ▸ helement), ← ofName_of_list helement]
    exact ha
  | none =>
    rw [ofName_of_scalar helement] at ha
    rw [ofName_of_scalar (h ▸ helement), ← h]
    cases hscalar : ofScalarName (plainName a) with
    | some scalarType =>
      rw [hscalar] at ha
      exact ha
    | none =>
      rw [hscalar] at ha
      contradiction

theorem ofName_brackets (cs : List Char) :
    ofName (cs ++ ['[', ']']) = list <$> ofName ((skipBlanks cs).map Char.toUpper) :=
  ofName_of_list (by rw [plainName_brackets, listElementName?_brackets])

/-- Brackets make a list of what the name before them is read as. -/
theorem ofName_brackets_eq_ok {cs : List Char} {t : DataType} :
    ofName (cs ++ ['[', ']']) = .ok t ↔ ∃ element, ofName cs = .ok element ∧ t = list element := by
  have hplain : plainName ((skipBlanks cs).map Char.toUpper) = plainName cs :=
    (plainName_map_toUpper _).trans (plainName_skipBlanks cs)
  rw [ofName_brackets, map_eq_ok]
  exact exists_congr fun element =>
    and_congr ⟨ofName_congr hplain, ofName_congr hplain.symm⟩ eq_comm

/-! ### The name of a type -/

theorem ofName_of_ofScalarName {name : List Char} {t : ScalarType}
    (helement : listElementName? (plainName name) = none)
    (hscalar : ofScalarName (plainName name) = some (.ok t)) : ofName name = .ok (scalar t) := by
  rw [ofName_of_scalar helement, hscalar]
  rfl

theorem toList_sql_decimal (width scale : UInt8) :
    (ScalarType.decimal width scale).sql.toList = decimalName width.toNat scale.toNat := by
  have hword : "DECIMAL(".toList = ['D', 'E', 'C', 'I', 'M', 'A', 'L', '('] := rfl
  show ("DECIMAL(" ++ natText width.toNat ++ "," ++ natText scale.toNat ++ ")").toList = _
  simp [hword, decimalName, natText]

theorem ofScalarName_decimalName (width scale : UInt8) :
    ofScalarName (decimalName width.toNat scale.toNat) = some (.ok (.decimal width scale)) := by
  have hparameter (n : UInt8) : toInt64? (readDigits 0 (decimalDigits n.toNat)) =
      some (.ofInt n.toNat) := by
    have := n.toNat_lt
    rw [readDigits_decimalDigits, toInt64?, if_pos (by omega)]
  rw [ofScalarName, readDecimalName?_decimalName]
  simp [hparameter, decimalType_ofInt]

theorem ofName_scalar (t : ScalarType) : ofName t.sql.toList = .ok (scalar t) := by
  cases t with
  | decimal width scale =>
    rw [toList_sql_decimal]
    refine ofName_of_ofScalarName ?_ ?_
    · rw [plainName_decimalName]
      simp [listElementName?, decimalName]
    · rw [plainName_decimalName, ofScalarName_decimalName]
  | _ => exact ofName_of_ofScalarName (by decide) (by rfl)

/-- The type is a map or a struct, or a list of a type that is one. -/
def hasRecord : DataType → Bool
  | scalar _ => false
  | list t => hasRecord t
  | map _ _ | struct _ => true

theorem ofName_sql {t : DataType} (h : t.hasRecord = false) : ofName t.sql.toList = .ok t := by
  induction t using partInduction with
  | scalar t => exact ofName_scalar t
  | list t ih =>
    rw [sql, String.toList_append]
    exact ofName_brackets_eq_ok.mpr ⟨t, ih h, rfl⟩
  | map => contradiction
  | struct => contradiction

/-- A name that ends with a parenthesis and is not the name of a decimal type. -/
theorem ofName_of_parenthesis {name middle : List Char} {first : Char}
    (hplain : plainName name = first :: (middle ++ [')'])) (hfirst : first ≠ 'D' ∧ first ≠ 'N') :
    ∃ word, ofName name = .error (.unsupported (.dataType word)) := by
  have helement : listElementName? (plainName name) = none := by
    simp [hplain, listElementName?]
  have hdecimal : readDecimalName? (plainName name) = none := by
    simp [hplain, readDecimalName?, afterWord?, afterPrefix?, Ne.symm hfirst.1, Ne.symm hfirst.2]
  have hscalar : Fields.get? scalarNames (.ofList (plainName name)) = none := by
    refine Fields.get?_eq_none_of_not_mem fun hmem => ?_
    have hlast : ∀ key ∈ Fields.keys scalarNames, key.toList.getLast? ≠ some ')' := by decide
    refine hlast _ hmem ?_
    rw [String.toList_ofList, hplain, ← List.cons_append, List.getLast?_concat]
  refine ⟨.ofList (trimBlanks name), ?_⟩
  rw [ofName_of_scalar helement, ofScalarName, hdecimal, hscalar]
  rfl

/-- The text between the parentheses of the name of a map or a struct does not count. -/
theorem plainName_of_parentheses {first : Char} (middle : List Char) (h : isBlank first = false) :
    plainName (first :: (middle ++ [')'])) =
      first.toUpper :: (middle.map Char.toUpper ++ [')']) := by
  have htrim : trimBlanks ([first] ++ (middle ++ [')'])) = [first] ++ (middle ++ [')']) :=
    trimBlanks_append middle (by simpa using h) (by simp [isBlank]) (by simp) (by simp)
  rw [plainName, ← List.singleton_append, htrim]
  simp

theorem exists_sql_map (k v : DataType) :
    ∃ middle, (map k v).sql.toList = 'M' :: (middle ++ [')']) := by
  have hword : "MAP(".toList = ['M', 'A', 'P', '('] := rfl
  exact ⟨['A', 'P', '('] ++ k.sql.toList ++ ", ".toList ++ v.sql.toList, by simp [sql, hword]⟩

theorem exists_sql_struct (fs : List (String × DataType)) :
    ∃ middle, (struct fs).sql.toList = 'S' :: (middle ++ [')']) := by
  have hword : "STRUCT(".toList = ['S', 'T', 'R', 'U', 'C', 'T', '('] := rfl
  have hquoted : "STRUCT(\"".toList = ['S', 'T', 'R', 'U', 'C', 'T', '(', '"'] := rfl
  cases fs with
  | nil => exact ⟨['T', 'R', 'U', 'C', 'T', '('], rfl⟩
  | cons f fs =>
    obtain ⟨name, t⟩ := f
    refine ⟨['T', 'R', 'U', 'C', 'T', '(', '"'] ++ name.toList ++ "\" ".toList ++ t.sql.toList ++
      (sqlFields fs).toList, ?_⟩
    simp [sql, hquoted]

/-- No name of a map, of a struct, or of a list of such a type is read. -/
theorem exists_ofName_error {t : DataType} (h : t.hasRecord = true) {name : List Char}
    (hname : plainName name = plainName t.sql.toList) :
    ∃ word, ofName name = .error (.unsupported (.dataType word)) := by
  induction t using partInduction generalizing name with
  | scalar t => contradiction
  | list t ih =>
    rw [sql, String.toList_append] at hname
    have helement := hname.trans (plainName_brackets t.sql.toList)
    obtain ⟨word, hword⟩ := ih h ((plainName_map_toUpper _).trans (plainName_skipBlanks _))
    refine ⟨word, ?_⟩
    rw [ofName_of_list (helement ▸ listElementName?_brackets _), hword]
    rfl
  | map k v =>
    obtain ⟨middle, hsql⟩ := exists_sql_map k v
    rw [hsql, plainName_of_parentheses middle (by decide)] at hname
    exact ofName_of_parenthesis hname (by decide)
  | struct fs =>
    obtain ⟨middle, hsql⟩ := exists_sql_struct fs
    rw [hsql, plainName_of_parentheses middle (by decide)] at hname
    exact ofName_of_parenthesis hname (by decide)

end DataType

/-! ### Spellings -/

/-- The text spells the name: its letters are in either case, and there may be white space around it
and before its brackets. -/
inductive Spelling : String → String → Prop
  | cased {name text : String}
    (letters : text.toList.map Char.toUpper = name.toList.map Char.toUpper) : Spelling name text
  | blanksBefore {name text : String} (blanks : String)
    (blank : ∀ c ∈ blanks.toList, isBlank c = true) (spelled : Spelling name text) :
    Spelling name (blanks ++ text)
  | blanksAfter {name text : String} (blanks : String)
    (blank : ∀ c ∈ blanks.toList, isBlank c = true) (spelled : Spelling name text) :
    Spelling name (text ++ blanks)
  | brackets {name text : String} (spelled : Spelling name text) :
    Spelling (name ++ "[]") (text ++ "[]")

theorem Spelling.ofName {name text : String} (h : Spelling name text) {t : DataType}
    (hname : DataType.ofName name.toList = .ok t) : DataType.ofName text.toList = .ok t := by
  induction h generalizing t with
  | cased letters => exact DataType.ofName_congr (plainName_of_upper letters.symm) hname
  | blanksBefore blanks blank _ ih =>
    rw [String.toList_append]
    exact DataType.ofName_congr (plainName_blanks_append blank _).symm (ih hname)
  | blanksAfter blanks blank _ ih =>
    rw [String.toList_append]
    exact DataType.ofName_congr (plainName_append_blanks blank _).symm (ih hname)
  | brackets _ ih =>
    rw [String.toList_append] at hname ⊢
    obtain ⟨element, helement, rfl⟩ := DataType.ofName_brackets_eq_ok.mp hname
    exact DataType.ofName_brackets_eq_ok.mpr ⟨element, ih helement, rfl⟩

/-- A declared column has the type that its type name is read as. -/
theorem PartitionColumn.parse_of_ofName {name text : String} {t : DataType} (hne : name ≠ "")
    (hname : ∀ c ∈ name.toList, isBlank c = false ∧ c ≠ ':')
    (htext : DataType.ofName text.toList = .ok t) :
    PartitionColumn.parse (name ++ ":" ++ text) = .ok ⟨name, t⟩ := by
  have hcolon : ':' ∉ name.toList := fun h => (hname _ h).2 rfl
  have hsplit : splitFirst? ':' (name ++ ":" ++ text).toList = some (name.toList, text.toList) := by
    rw [String.toList_append, String.toList_append, List.append_assoc]
    exact splitFirst?_append hcolon
  have htrim : trimBlanks name.toList = name.toList := trimBlanks_eq_self fun c hc => (hname c hc).1
  have htype : DataType.ofName (trimBlanks text.toList) = .ok t :=
    DataType.ofName_congr (plainName_trimBlanks _).symm htext
  have hnonempty : trimBlanks text.toList ≠ [] := by
    have hempty : DataType.ofName [] = .error (.unsupported (.dataType "")) :=
      DataType.ofName_of_scalar rfl
    intro hnil
    rw [hnil, hempty] at htype
    contradiction
  have hplain : name.toList.any isBlank = false :=
    List.any_eq_false.mpr fun c hc => by simp [(hname c hc).1]
  rw [parse, hsplit]
  simp only [htrim, hplain, Option.some.injEq, hnonempty, String.toList_eq_nil_iff, hne,
    Bool.false_eq_true, or_self, if_false, htype, String.ofList_toList]
  rfl

/-- A scalar type, or lists of one, is read back from its SQL name in any spelling, also behind the
name of a column. A map, a struct, or a list of such a type has no name that is read. -/
theorem parse_sql (t : DataType) :
    (t.hasRecord = false → ∀ text, Spelling t.sql text →
      DataType.parse text = .ok t ∧
      ∀ name : String, name ≠ "" → (∀ c ∈ name.toList, isBlank c = false ∧ c ≠ ':') →
        PartitionColumn.parse (name ++ ":" ++ text) = .ok ⟨name, t⟩) ∧
    (t.hasRecord = true →
      ∃ word, DataType.parse t.sql = .error (.unsupported (.dataType word))) := by
  constructor
  · intro ht text hspelling
    have htext : DataType.ofName text.toList = .ok t := hspelling.ofName (DataType.ofName_sql ht)
    exact ⟨htext, fun name hne hname => PartitionColumn.parse_of_ofName hne hname htext⟩
  · intro ht
    exact DataType.exists_ofName_error ht rfl

theorem parse_sql_lists :
    DataType.parse " decimal(18,3) []\t[] " = .ok (.list (.list (.scalar (.decimal 18 3)))) ∧
    PartitionColumn.parse "amounts: decimal(18,3) []\t[] " =
      .ok ⟨"amounts", .list (.list (.scalar (.decimal 18 3)))⟩ ∧
    ∃ word, DataType.parse (DataType.list (.struct [("a[]", .scalar .date)])).sql =
      .error (.unsupported (.dataType word)) := by
  have hspace : ∀ c ∈ " ".toList, isBlank c = true := by simp [isBlank]
  have htab : ∀ c ∈ "\t".toList, isBlank c = true := by simp [isBlank]
  have hdecimal : Spelling (ScalarType.decimal 18 3).sql (" " ++ "decimal(18,3)" ++ " ") :=
    .blanksAfter " " hspace (.blanksBefore " " hspace (.cased (by decide)))
  have htext : " " ++ "decimal(18,3)" ++ " " ++ "[]" ++ "\t" ++ "[]" ++ " " =
      " decimal(18,3) []\t[] " := by decide
  have hspelling := (hdecimal.brackets.blanksAfter "\t" htab).brackets.blanksAfter " " hspace
  rw [htext] at hspelling
  obtain ⟨htype, hcolumn⟩ := (parse_sql (.list (.list (.scalar (.decimal 18 3))))).1 rfl _ hspelling
  exact ⟨htype, hcolumn "amounts" (by decide) (by simp [isBlank]),
    (parse_sql (.list (.struct [("a[]", .scalar .date)]))).2 rfl⟩

end PartitionPruning
