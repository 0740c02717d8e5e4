import Rowflow.Proofs.Json.ReadBack
import Rowflow.Proofs.Text.Numeral
import Rowflow.Row.Json

/-!
# Rows and layouts read back from JSON

JSON does not say which form a value has: the forms are tried in a fixed order and the first one that
fits is taken (`Value.ofJson?_eq_findSome?`). The JSON form of a value fits its own form and none that is
tried before (`Value.exists_first`), so each value is read back as it was. Rows and layouts are lists of
values and fields, and their texts are read back as the JSON that was written. Main statement:
`Row.encoding_reads_back`.
-/

namespace Rowflow

theorem mapM_map_of_reads {m : Type → Type} [Monad m] [LawfulMonad m] {α β : Type} {write : α → β}
    {read : β → m α} {l : List α} (h : ∀ a ∈ l, read (write a) = pure a) :
    (l.map write).mapM read = pure l := by
  induction l with
  | nil => exact List.mapM_nil
  | cons a l ih =>
    rw [List.map_cons, List.mapM_cons, h a List.mem_cons_self, pure_bind,
      ih fun b hb => h b (List.mem_cons_of_mem a hb), pure_bind]

namespace Value

/-! ### Forms -/

/-- The forms of a value, each with its kind, in the order in which they are tried. -/
def forms : List (Option Kind) :=
  none :: [Kind.boolean, .integer, .number, .string, .binary].map some

/-- The value of one form that a JSON value stands for. Every integer is also a number. -/
def readAs? : Option Kind → Json → Option Value
  | none, .null => some .null
  | some .boolean, .bool b => some (.boolean b)
  | some .integer, .integer n => (Text.int64OfInt? n).map .integer
  | some .number, .integer n => some (.number (.ofInt n))
  | some .number, .number x => some (.number x)
  | some .string, .string s => some (.string s)
  | some .binary, .array items => (items.mapM byteOfJson?).map .binary
  | _, _ => none

theorem ofJson?_eq_findSome? (j : Json) : ofJson? j = forms.findSome? (readAs? · j) := by
  cases j with
  | integer n =>
    simp only [ofJson?, forms, List.map_cons, List.findSome?_cons, readAs?]
    cases Text.int64OfInt? n <;> rfl
  | array items =>
    simp only [ofJson?, forms, List.map_cons, List.findSome?_cons, readAs?]
    cases items.mapM byteOfJson? <;> rfl
  | null | bool | number | string | object => rfl

theorem byteOfJson?_toNat (b : UInt8) : byteOfJson? (.integer b.toNat) = some b := by
  have hbyte : (0 : Int) ≤ b.toNat ∧ (b.toNat : Int) < 256 := by
    have := b.toNat_lt
    omega
  rw [byteOfJson?, if_pos hbyte, Int.toNat_natCast, UInt8.ofNat_toNat]

/-- A finite value is read in its own form, and in none of the forms that are tried before. -/
theorem exists_first {v : Value} (h : ∀ x, v = .number x → x.isFinite = true) :
    ∃ before after, forms = before ++ v.kind? :: after ∧
      (∀ k ∈ before, readAs? k v.toJson = none) ∧ readAs? v.kind? v.toJson = some v := by
  cases v with
  | null => exact ⟨[], _, rfl, by simp, rfl⟩
  | boolean b => exact ⟨[none], _, rfl, by simp [toJson, readAs?], rfl⟩
  | integer n =>
    refine ⟨[none, some .boolean], _, rfl, by simp [toJson, readAs?], ?_⟩
    change (Text.int64OfInt? n.toInt).map _ = _
    rw [Text.int64OfInt?_toInt, Option.map_some]
  | number x =>
    have htext : (number x).toJson = .number x := if_pos (h x rfl)
    rw [htext]
    exact ⟨[none, some .boolean, some .integer], _, rfl, by simp [readAs?], rfl⟩
  | string s =>
    exact ⟨[none, some .boolean, some .integer, some .number], _, rfl, by simp [toJson, readAs?], rfl⟩
  | binary bytes =>
    refine ⟨[none, some .boolean, some .integer, some .number, some .string], _, rfl,
      by simp [toJson, readAs?], ?_⟩
    change ((bytes.map fun b => Json.integer b.toNat).mapM byteOfJson?).map _ = _
    rw [mapM_map_of_reads fun b _ => byteOfJson?_toNat b]
    rfl

theorem ofJson?_toJson {v : Value} (h : ∀ x, v = .number x → x.isFinite = true) :
    ofJson? v.toJson = some v := by
  obtain ⟨before, after, hforms, hbefore, hown⟩ := exists_first h
  rw [ofJson?_eq_findSome?, hforms, List.findSome?_append,
    List.findSome?_eq_none_iff.mpr hbefore, Option.none_or, List.findSome?_cons, hown]

/-- The JSON form of a value is read back from its text if this holds of a number. -/
theorem legible_toJson {v : Value}
    (h : ∀ x, v = .number x → Json.parse? (x.render .json) = some (.number x)) : v.toJson.Legible := by
  cases v with
  | null => exact .null
  | boolean b => exact .bool b
  | integer n =>
    have hmax : Int64.maxValue.toInt < UInt64.size := by decide
    exact .integer _ n.minValue_le_toInt (Int.lt_of_le_of_lt n.toInt_le hmax)
  | number x =>
    rw [toJson]
    split
    · exact .number x (h x rfl)
    · exact .null
  | string s => exact .string s
  | binary bytes =>
    refine .array _ fun v hv => ?_
    obtain ⟨b, -, rfl⟩ := List.mem_map.mp hv
    have hmin : Int64.minValue.toInt ≤ 0 := by decide
    have hmax : 256 ≤ UInt64.size := by decide
    have := b.toNat_lt
    exact .integer _ (by omega) (by omega)

end Value

/-! ### Rows -/

namespace Row

theorem ofJson?_toJsonList {r : Row} (h : ∀ x, Value.number x ∈ r.values → x.isFinite = true) :
    ofJson? r.toJsonList = some r := by
  have hvalues : (r.values.map Value.toJson).mapM Value.ofJson? = some r.values :=
    mapM_map_of_reads fun v hv => Value.ofJson?_toJson fun x hx => h x (hx ▸ hv)
  change ((r.values.map Value.toJson).mapM Value.ofJson?).map Row.mk = some r
  rw [hvalues, Option.map_some]

theorem legible_toJsonList {r : Row}
    (h : ∀ x, Value.number x ∈ r.values → Json.parse? (x.render .json) = some (.number x)) :
    r.toJsonList.Legible := by
  refine .array _ fun j hj => ?_
  obtain ⟨v, hv, rfl⟩ := List.mem_map.mp hj
  exact Value.legible_toJson fun x hx => h x (hx ▸ hv)

end Row

/-! ### Layouts -/

namespace Reading

theorem jsonKind_keyword (k : Kind) : jsonKind (.string k.keyword) = .ok k := by cases k <;> rfl

theorem jsonInt32_toInt (n : Int32) : jsonInt32 (.integer n.toInt) = .ok n := by
  change (if _ then _ else _) = _
  rw [if_pos ⟨n.minValue_le_toInt, n.toInt_le⟩, Int32.ofInt_toInt]

end Reading

/-- The field as an object, as it stands in a layout. -/
def Field.toJson (f : Field) : Json :=
  .object [("name", .string f.name), ("type", .string f.kind.keyword),
    ("length", .integer f.length.toInt), ("precision", .integer f.precision.toInt)]

namespace Field

theorem jsonField_toJson (f : Field) : Reading.jsonField f.toJson = .ok f := by
  have hsorted : Reading.jsonField f.toJson =
      (Reading.FieldDraft.read {} ("length", .integer f.length.toInt) >>= fun d =>
        d.read ("name", .string f.name) >>= fun d =>
          d.read ("precision", .integer f.precision.toInt) >>= fun d =>
            d.read ("type", .string f.kind.keyword) >>= fun d => pure d) >>=
        Reading.FieldDraft.finish := rfl
  rw [hsorted]
  simp only [Reading.FieldDraft.read, Reading.jsonInt32_toInt, Reading.jsonKind_keyword,
    Reading.jsonString]
  rfl

theorem legible_toJson (f : Field) : f.toJson.Legible := by
  have legible_int32 : ∀ n : Int32, Json.Legible (.integer n.toInt) := by
    intro n
    have hmin : Int64.minValue.toInt ≤ Int32.minValue.toInt := by decide
    have hmax : Int32.maxValue.toInt < UInt64.size := by decide
    exact .integer _ (Int.le_trans hmin n.minValue_le_toInt) (Int.lt_of_le_of_lt n.toInt_le hmax)
  refine .object _ fun m hm => ?_
  simp only [List.mem_cons, List.not_mem_nil, or_false] at hm
  rcases hm with rfl | rfl | rfl | rfl
  · exact .string _
  · exact .string _
  · exact legible_int32 _
  · exact legible_int32 _

end Field

namespace Layout

theorem toJson_eq (l : Layout) : l.toJson = .object [("fields", .array (l.fields.map Field.toJson))] :=
  rfl

theorem ofJson_toJson (l : Layout) : ofJson l.toJson = .ok l := by
  have hfields : (l.fields.map Field.toJson).mapM Reading.jsonField = .ok l.fields :=
    mapM_map_of_reads fun f _ => f.jsonField_toJson
  rw [toJson_eq]
  change ((l.fields.map Field.toJson).mapM Reading.jsonField >>= fun fields => pure (Layout.mk fields)) =
    Except.ok l
  rw [hfields]
  rfl

theorem legible_toJson (l : Layout) : l.toJson.Legible := by
  rw [toJson_eq]
  refine .object _ fun m hm => ?_
  obtain rfl := List.mem_singleton.mp hm
  refine .array _ fun j hj => ?_
  obtain ⟨f, -, rfl⟩ := List.mem_map.mp hj
  exact f.legible_toJson

end Layout

/-! ### Reading back -/

/-- **Rows and layouts** are read back from their JSON, and from its text. Reading a value takes the first
form that fits, and the JSON form of a finite value fits none that is tried before its own. That the
numbers of the row are read back from their texts is a matter of printing and reading numbers. -/
theorem Row.encoding_reads_back :
    (∀ j, Value.ofJson? j = Value.forms.findSome? (Value.readAs? · j)) ∧
    (∀ v : Value, (∀ x, v = .number x → x.isFinite = true) →
      ∃ before after, Value.forms = before ++ v.kind? :: after ∧
        (∀ k ∈ before, Value.readAs? k v.toJson = none) ∧ Value.readAs? v.kind? v.toJson = some v) ∧
    (∀ r : Row, (∀ x, Value.number x ∈ r.values → x.isFinite = true) →
      Row.ofJson? r.toJsonList = some r ∧
      ((∀ x, Value.number x ∈ r.values → Json.parse? (x.render .json) = some (.number x)) →
        (Json.parse? r.toJsonList.render).bind Row.ofJson? = some r)) ∧
    ∀ l : Layout, Layout.ofJson l.toJson = .ok l ∧
      (Json.parse? l.toJson.render).map Layout.ofJson = some (.ok l) := by
  refine ⟨Value.ofJson?_eq_findSome?, fun v => Value.exists_first, fun r hfinite => ?_, fun l => ?_⟩
  · have hrow := Row.ofJson?_toJsonList hfinite
    refine ⟨hrow, fun hback => ?_⟩
    rw [Json.parse?_render (Row.legible_toJsonList hback), Option.bind_some, hrow]
  · have hlayout := l.ofJson_toJson
    refine ⟨hlayout, ?_⟩
    rw [Json.parse?_render l.legible_toJson, Option.map_some, hlayout]

namespace Mixed

/-- The number one. -/
def one : Binary64 := ⟨0x3ff0000000000000⟩

/-- A value of every form, with texts that look like other values and a list without bytes. -/
def row : Row :=
  ⟨[.null, .boolean true, .integer Int64.minValue, .number one, .string "1", .string "null", .binary [],
    .binary [0, 255]]⟩

theorem parseNumber_one : Json.parseNumber ['1', '.', '0'] = some (.number one, []) := by
  have hscale : Json.scale? (.ofInt 10) (-1) = some one := by
    rw [Json.scale?, if_neg (by decide), if_pos (by decide)]
    decide +kernel
  have hvalue : Json.NumberParts.value? ⟨false, ['1'], some ['0'], none⟩ = some (.number one) := by
    change (Json.scale? (.ofInt 10) (-1)).map _ = _
    rw [hscale]
    rfl
  have hwhole : Json.parseWhole ['1', '.', '0'] = some (['1'], ['.', '0']) := rfl
  have hfraction : Json.parseFraction ['.', '0'] = some (some ['0'], []) := rfl
  have hexponent : Json.parseExponent [] = some (none, []) := rfl
  change Json.parseUnsigned false ['1', '.', '0'] = _
  simp only [Json.parseUnsigned, hwhole, hfraction, hexponent, hvalue, Option.bind_eq_bind,
    Option.bind_some, Option.pure_def]

theorem render_one : one.render .json = "1.0" := by decide +kernel

theorem parse?_one : Json.parse? (one.render .json) = some (.number one) := by
  rw [render_one]
  exact Json.parse?_of_reads (Json.reads_of_parseNumber parseNumber_one rfl)

theorem eq_one {x : Binary64} (h : Value.number x ∈ row.values) : x = one := by
  simpa [row] using h

end Mixed

theorem Row.encoding_reads_back_mixed :
    (∀ x, Value.number x ∈ Mixed.row.values → x.isFinite = true) ∧
    (∀ x, Value.number x ∈ Mixed.row.values → Json.parse? (x.render .json) = some (.number x)) ∧
    Mixed.row.toJsonList.render =
      "[null,true,-9223372036854775808,1.0,\"1\",\"null\",[],[0,255]]" ∧
    Row.ofJson? Mixed.row.toJsonList = some Mixed.row ∧
    (Json.parse? Mixed.row.toJsonList.render).bind Row.ofJson? = some Mixed.row := by
  have hfinite : ∀ x, Value.number x ∈ Mixed.row.values → x.isFinite = true :=
    fun x hx => Mixed.eq_one hx ▸ by decide
  have hback : ∀ x, Value.number x ∈ Mixed.row.values →
      Json.parse? (x.render .json) = some (.number x) :=
    fun x hx => Mixed.eq_one hx ▸ Mixed.parse?_one
  have hread := Row.encoding_reads_back.2.2.1 Mixed.row hfinite
  exact ⟨hfinite, hback, by decide +kernel, hread.1, hread.2 hback⟩

end Rowflow
