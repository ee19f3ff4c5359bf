import TinyJoin.DataModification

/-! What checking a row comes to: each of its columns holds the value it was given, respelled, and the
row is one that its table's records hold. -/
namespace TinyJoin

/-! ### Numbers -/

namespace F64

lemma isFinite_of_magnitude {f : F64} (h : f.magnitude < infinite) : f.isFinite = true := by
  rw [infinite] at h
  rw [isFinite, bne_iff_ne]
  omega

/-- A whole number's magnitude lies between those of 1 and of `2 ^ 64`. -/
lemma magnitude_ofNat_range {n : Nat} (hne : n ≠ 0) (h : n < 2 ^ 64) :
    1023 * 2 ^ 52 ≤ (ofNat n).magnitude ∧ (ofNat n).magnitude ≤ 1087 * 2 ^ 52 := by
  have hlog : Nat.log2 n < 64 := (Nat.log2_lt hne).mpr h
  have hhigh : n < 2 ^ (Nat.log2 n + 1) := Nat.lt_log2_self
  have hbits : ∀ fraction, fraction ≤ 2 ^ 52 →
      1023 * 2 ^ 52 ≤ F64.magnitude ⟨UInt64.ofNat ((Nat.log2 n + 1023) * 2 ^ 52 + fraction)⟩ ∧
        F64.magnitude ⟨UInt64.ofNat ((Nat.log2 n + 1023) * 2 ^ 52 + fraction)⟩ ≤ 1087 * 2 ^ 52 := by
    intro fraction hfraction
    rw [magnitude, UInt64.toNat_ofNat']
    omega
  unfold ofNat
  rw [if_neg hne]
  dsimp only
  split
  · next hsmall =>
    apply hbits
    have hscale : n * 2 ^ (52 - Nat.log2 n) < 2 ^ (Nat.log2 n + 1) * 2 ^ (52 - Nat.log2 n) :=
      Nat.mul_lt_mul_of_pos_right hhigh (by positivity)
    rw [← Nat.pow_add, show Nat.log2 n + 1 + (52 - Nat.log2 n) = 53 by omega] at hscale
    omega
  · next hlarge =>
    apply hbits
    have hkept : n / 2 ^ (Nat.log2 n - 52) < 2 ^ 53 := by
      rw [Nat.div_lt_iff_lt_mul (by positivity), ← Nat.pow_add,
        show 53 + (Nat.log2 n - 52) = Nat.log2 n + 1 by omega]
      exact hhigh
    split <;> omega

lemma magnitude_ofNat_lt {n : Nat} (h : n < 2 ^ 64) : (ofNat n).magnitude < infinite := by
  by_cases hne : n = 0
  · rw [hne]
    decide
  · have hrange := magnitude_ofNat_range hne h
    rw [infinite]
    omega

lemma magnitude_neg (f : F64) : f.neg.magnitude = f.magnitude := by
  obtain ⟨bits⟩ := f
  have hxor : (bits ^^^ signBit).toNat % 2 ^ 63 = bits.toNat % 2 ^ 63 := by
    rw [UInt64.toNat_xor, Nat.xor_mod_two_pow]
    simp [signBit]
  exact hxor

lemma magnitude_ofInt_lt {i : Int} (h : i.natAbs < 2 ^ 64) : (ofInt i).magnitude < infinite := by
  unfold ofInt
  split
  · rw [magnitude_neg]
    exact magnitude_ofNat_lt h
  · exact magnitude_ofNat_lt h

end F64

/-- A JSON number is finite. -/
lemma Number.isFinite_asF64 (n : Number) : n.asF64.isFinite = true := by
  cases n with
  | posInt n => exact F64.isFinite_of_magnitude (F64.magnitude_ofNat_lt n.toNat_lt)
  | negInt i =>
    have hrange := i.property
    exact F64.isFinite_of_magnitude (F64.magnitude_ofInt_lt (by omega))
  | float f => exact f.property

/-! ### Values -/

lemma floatValue_number (n : Number) :
    floatValue (.number n) = .number (.float ⟨n.asF64, n.isFinite_asF64⟩) := by
  simp only [floatValue, n.isFinite_asF64, Bool.not_true, Bool.or_false]
  split
  · next hfloat =>
    cases n with
    | float f => rfl
    | _ => cases hfloat
  · exact ofF64_of_finite n.isFinite_asF64

lemma asF64_floatValue (value : Value) : (floatValue value).asF64 = value.asF64 := by
  cases value with
  | number n => rw [floatValue_number]; rfl
  | _ => rfl

@[simp] lemma isNull_respelled (column : ColumnDefinition) (value : Value) :
    (respelled column value).isNull = value.isNull := by
  unfold respelled
  split
  · cases value with
    | number n => rw [floatValue_number]; rfl
    | _ => rfl
  · rfl

section Checks
variable {json : SerdeJson} {limits : TextLimits} {schema : TableDefinition}

/-- A value that passes its column's check is one that the column holds, once it is respelled. -/
lemma holds_respelled {column : ColumnDefinition} {value : Value} {table : String}
    (h : column.validateValue json limits value table = .ok ()) :
    if (respelled column value).isNull then column.nullable = true
    else (respelled column value).holds column.dataType = true := by
  rw [isNull_respelled]
  unfold ColumnDefinition.validateValue at h
  split at h
  · next hnull =>
    rw [if_pos hnull]
    split at h
    · assumption
    · cases h
  · next hnull =>
    rw [if_neg hnull]
    obtain ⟨valid, hvalid, h⟩ := Except.bind_eq_ok.mp h
    have hvalid : validShape json limits column value table = .ok true := by
      cases valid with
      | true => exact hvalid
      | false => cases h
    unfold validShape at hvalid
    unfold respelled
    cases htype : column.dataType with
    | boolean =>
      rw [htype] at hvalid
      simpa [Value.holds] using hvalid
    | integer =>
      rw [htype] at hvalid
      simpa [Value.holds] using hvalid
    | float =>
      rw [htype] at hvalid
      cases value with
      | number n => rw [if_pos rfl, floatValue_number]; rfl
      | _ => cases hvalid
    | text =>
      rw [htype] at hvalid
      cases value with
      | string s => rfl
      | _ => cases hvalid
    | json =>
      rw [if_neg (by simp), Value.holds]
      simpa using hnull

/-- A value and its respelling are written in a record alike. -/
lemma encodeCell_respelled (table : String) (column : ColumnDefinition) (value : Value) :
    encodeCell json table (column, .value (respelled column value)) =
      encodeCell json table (column, .value value) := by
  have hwritten : encodeValue json column (respelled column value) [] table =
      encodeValue json column value [] table := by
    unfold respelled
    split
    · next hfloat => simp only [encodeValue, hfloat, asF64_floatValue]
    · rfl
  simp only [encodeCell, isNull_respelled, hwritten]

/-! ### Maps -/

lemma lookup_map_replaced {entries : List (String × Value)} {name other : String} {value : Value} :
    (entries.map (fun entry => if entry.1 = name then (name, value) else entry)).lookup other =
      if other = name then (entries.lookup name).map (fun _ => value) else entries.lookup other := by
  induction entries with
  | nil => simp
  | cons entry rest ih =>
    obtain ⟨key, old⟩ := entry
    rw [List.map_cons]
    by_cases hkey : key = name
    · subst hkey
      rw [if_pos rfl, List.lookup_cons, List.lookup_cons, List.lookup_cons, ih]
      by_cases hother : other = key
      · simp [hother]
      · simp only [beq_eq_false_iff_ne.mpr hother, if_neg hother]
    · rw [if_neg hkey, List.lookup_cons, List.lookup_cons, List.lookup_cons, ih]
      by_cases hother : other = key
      · subst hother
        simp only [beq_self_eq_true, if_neg hkey]
      · have hne : name ≠ key := Ne.symm hkey
        simp only [beq_eq_false_iff_ne.mpr hother, beq_eq_false_iff_ne.mpr hne]

@[simp] lemma RowMap.row_insert (map : RowMap) (name : String) (value : Value) :
    (map.insert name value).row = map.row.insert name value := by
  funext other
  unfold RowMap.insert
  split
  · next hany =>
    obtain ⟨entry, hentry, hname⟩ := List.any_eq_true.mp hany
    have hne : map.entries.lookup name ≠ none := by
      rw [Ne, List.lookup_eq_none_iff]
      exact fun hnone => absurd (beq_iff_eq.mp hname).symm (bne_iff_ne.mp (hnone entry hentry))
    obtain ⟨old, hold⟩ := Option.ne_none_iff_exists'.mp hne
    simp only [RowMap.row, lookup_map_replaced, Row.insert, hold, Option.map_some]
  · next hany =>
    have hnone : map.entries.lookup name = none := by
      rw [List.lookup_eq_none_iff]
      intro entry hentry
      rw [Bool.not_eq_true, List.any_eq_false] at hany
      have hne := hany entry hentry
      rw [beq_iff_eq] at hne
      exact bne_iff_ne.mpr (Ne.symm hne)
    rw [RowMap.row, List.lookup_append, Row.insert]
    by_cases hother : other = name
    · rw [if_pos hother, hother, hnone, Option.none_or, List.lookup_cons_self]
    · rw [if_neg hother, List.lookup_cons, beq_eq_false_iff_ne.mpr hother]
      exact Option.or_none

/-! ### Normalized rows -/

lemma normalizeColumns_spec {table : String} {columns : List ColumnDefinition} {map map' : RowMap}
    (hnames : (columns.map (fun column => column.name)).Nodup)
    (h : normalizeColumns json limits table columns map = .ok map') :
    (∀ column ∈ columns,
      let value := (map.row column.name).getD (column.default.getD .null)
      column.validateValue json limits value table = .ok () ∧
        map'.row column.name = some (respelled column value)) ∧
      ∀ name, name ∉ columns.map (fun column => column.name) → map'.row name = map.row name := by
  induction columns generalizing map with
  | nil =>
    cases h
    exact ⟨fun _ hmem => (nomatch hmem), fun _ _ => rfl⟩
  | cons column columns ih =>
    obtain ⟨hfirst, hrest⟩ := List.nodup_cons.mp hnames
    obtain ⟨value, hvalue, h⟩ := Except.bind_eq_ok.mp h
    obtain ⟨_, hvalid, hvalue⟩ := Except.bind_eq_ok.mp hvalue
    cases hvalue
    obtain ⟨hcolumns, hothers⟩ := ih hrest h
    have hkept : ∀ name, name ≠ column.name →
        (map.insert column.name (respelled column
          ((map.row column.name).getD (column.default.getD .null)))).row name = map.row name := by
      intro name hne
      rw [RowMap.row_insert, Row.insert_other hne]
    constructor
    · intro other hother
      rcases List.mem_cons.mp hother with rfl | hmem
      · refine ⟨hvalid, ?_⟩
        rw [hothers _ hfirst, RowMap.row_insert, Row.insert_same]
      · have hne : other.name ≠ column.name :=
          fun heq => hfirst (List.mem_map.mpr ⟨other, hmem, heq⟩)
        rw [← hkept other.name hne]
        exact hcolumns other hmem
    · intro name hname
      rw [List.map_cons, List.mem_cons, not_or] at hname
      rw [hothers name hname.2, hkept name hname.1]

/-- A normalized row has its table's columns, each with the value it was given, respelled, or else its
default. -/
lemma normalizeRow_spec {map map' : RowMap} (hshape : SchemaShape schema)
    (h : normalizeRow json limits schema map = .ok map') :
    (∀ column ∈ schema.columns,
      let value := (map.row column.name).getD (column.default.getD .null)
      column.validateValue json limits value schema.name = .ok () ∧
        map'.row column.name = some (respelled column value)) ∧
      ∀ name, name ∉ schema.columns.map (fun column => column.name) → map'.row name = none := by
  obtain ⟨_, -, h⟩ := Except.bind_eq_ok.mp h
  split at h
  · cases h
  · next hknown =>
    obtain ⟨row, hrow, h⟩ := Except.bind_eq_ok.mp h
    obtain ⟨_, -, h⟩ := Except.bind_eq_ok.mp h
    cases h
    obtain ⟨hcolumns, hothers⟩ := normalizeColumns_spec hshape.names_nodup hrow
    refine ⟨hcolumns, fun name hname => ?_⟩
    rw [hothers name hname]
    by_contra hsome
    obtain ⟨value, hvalue⟩ := Option.ne_none_iff_exists'.mp hsome
    obtain ⟨_, _, hsplit, -⟩ := List.lookup_eq_some_iff.mp hvalue
    have hmem : (name, value) ∈ map.entries := by simp [hsplit]
    have hfound := List.find?_eq_none.mp hknown _ hmem
    rw [Bool.not_eq_true, Bool.not_eq_false', List.any_eq_true] at hfound
    obtain ⟨column, hcolumn, heq⟩ := hfound
    exact hname (List.mem_map.mpr ⟨column, hcolumn, beq_iff_eq.mp heq⟩)

lemma normalized_of_normalizeRow {map map' : RowMap} (hshape : SchemaShape schema)
    (h : normalizeRow json limits schema map = .ok map') : Normalized schema map'.row := by
  obtain ⟨hcolumns, hothers⟩ := normalizeRow_spec hshape h
  constructor
  · intro name
    constructor
    · intro hsome
      by_contra hname
      rw [hothers name hname] at hsome
      cases hsome
    · intro hname
      obtain ⟨column, hcolumn, rfl⟩ := List.mem_map.mp hname
      rw [(hcolumns column hcolumn).2, Option.isSome_some]
  · intro column hcolumn value hvalue
    obtain ⟨hvalid, hrow⟩ := hcolumns column hcolumn
    rw [hrow, Option.some.injEq] at hvalue
    rw [← hvalue]
    exact holds_respelled hvalid

end Checks

/-! ### Constants -/

/-- An expression that reads no row gives one value, however columns are read. -/
lemma evaluate_constant {expression : Expression} (h : expression.readsRow = false)
    (column other : String → Bool → Result Value) :
    evaluate column expression = evaluate other expression := by
  induction expression with
  | value value => rfl
  | column name => cases h
  | excluded name => cases h
  | negate operand ih => rw [evaluate, evaluate, ih h]
  | binary operator left right ihl ihr =>
    rw [Expression.readsRow, Bool.or_eq_false_iff] at h
    rw [evaluate, evaluate, ihl h.1, ihr h.2]

lemma evaluate_of_constant {expression : Expression} {value : Value}
    (hreads : expression.readsRow = false) (h : constant expression = .ok value)
    (column : String → Bool → Result Value) : evaluate column expression = .ok value := by
  obtain ⟨_, -, h⟩ := Except.bind_eq_ok.mp h
  rw [← h]
  exact evaluate_constant hreads _ _
end TinyJoin
