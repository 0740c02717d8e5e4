import Mathlib.Data.List.Forall2
import Rowflow.Proofs.Transform.Rewriting

/-!
# Generated rows

The options of a source of generated rows ask for a list of rows: one for each value, and all of them
a number of times (`GenerateOptions.rows`). In a run of calls (`GenerateRows.run`) the source writes
these rows, one in each call, and has nothing more to do after the last one; a row that is refused is
written again in the next call (`Plan.Seen.ofRows`). Main statement: `GenerateRows.generates_rows`.
-/

namespace Rowflow

/-! ### What is asked for -/

namespace GenerateOptions

/-- The kind of all values: the given one, or the one that the first value suggests. -/
def fieldKind (o : GenerateOptions) : Kind := o.kind.getD (GenerateRows.inferKind o.values.head?)

/-- The row with a value. -/
def entry (o : GenerateOptions) (v : Value) : Entry := ⟨⟨[⟨o.field, o.fieldKind, -1, -1⟩]⟩, ⟨[v]⟩⟩

/-- The rows with the given values, in order and as many times as there should be. -/
def rows (o : GenerateOptions) (vs : List Value) : List Entry :=
  ((List.replicate o.count.toNat vs).flatten).map o.entry

/-- The source of the rows with the given values, before it has written any. -/
def source (o : GenerateOptions) (vs : List Value) : GenerateRows where
  layout := ⟨[⟨o.field, o.fieldKind, -1, -1⟩]⟩
  values := vs.toArray
  total := .ofNat (vs.length * o.count.toNat)

theorem length_rows (o : GenerateOptions) (vs : List Value) :
    (o.rows vs).length = vs.length * o.count.toNat := by
  rw [rows, List.length_map, List.length_flatten, List.map_replicate, List.sum_replicate_nat,
    Nat.mul_comm]

end GenerateOptions

/-- What is seen of calls that are to write some rows, one in each call, given what the outputs reply
and the row that could be read. -/
def Plan.Seen.ofRows (unread : Entry) :
    List Entry → List (Except TransformError Unit) → List Plan.Seen
  | _, [] => []
  | [], _ :: replies => ⟨some unread, [], .ok false⟩ :: ofRows unread [] replies
  | e :: rest, .ok () :: replies => ⟨some unread, [e], .ok true⟩ :: ofRows unread rest replies
  | e :: rest, .error err :: replies =>
    ⟨some unread, [e], .error err⟩ :: ofRows unread (e :: rest) replies

/-- As long as no row is refused the rows are written one after the other, and then nothing. -/
theorem Plan.Seen.ofRows_ok (unread : Entry) (rows : List Entry) (n : Nat) :
    ofRows unread rows (.replicate n (.ok ())) =
      (rows.take n).map (fun e => ⟨some unread, [e], .ok true⟩) ++
        .replicate (n - rows.length) ⟨some unread, [], .ok false⟩ := by
  induction n generalizing rows with
  | zero => simp [ofRows]
  | succ n ih =>
    rcases rows with _ | ⟨e, rest⟩
    · simpa [List.replicate_succ, ofRows] using ih []
    · simpa [List.replicate_succ, ofRows] using ih rest

theorem exists_of_forall₂ {α β : Type} {R : α → β → Prop} {l₁ : List α} {l₂ : List β}
    (h : List.Forall₂ R l₁ l₂) : ∀ a ∈ l₁, ∃ b ∈ l₂, R a b := by
  induction h with
  | nil => exact List.forall_mem_nil _
  | cons hab _ ih =>
    refine List.forall_mem_cons.mpr ⟨⟨_, List.mem_cons_self, hab⟩, fun a ha => ?_⟩
    obtain ⟨b, hb, hr⟩ := ih a ha
    exact ⟨b, List.mem_cons_of_mem _ hb, hr⟩

namespace GenerateRows

/-! ### Making a source -/

/-- The values are converted one by one, or one of them has no form of the kind. -/
theorem convert_cases (kind : Kind) (values : List Yaml) :
    (∃ vs, convert kind values = .ok vs ∧
      List.Forall₂ (fun y v => Value.ofYaml? y kind = some v) values vs) ∨
    ∃ text, convert kind values = .error text ∧ ∃ y ∈ values, Value.ofYaml? y kind = none := by
  induction values with
  | nil => exact Or.inl ⟨[], rfl, .nil⟩
  | cons y rest ih =>
    unfold convert at ih ⊢
    rw [List.mapM_cons]
    rcases hy : Value.ofYaml? y kind with _ | w
    · exact Or.inr ⟨_, rfl, y, List.mem_cons_self, hy⟩
    · rcases ih with ⟨vs, hvs, hall⟩ | ⟨text, htext, y', hmem, hnone⟩
      · exact Or.inl ⟨w :: vs, by rw [hvs]; rfl, .cons hy hall⟩
      · exact Or.inr ⟨text, by rw [htext]; rfl, y', List.mem_cons_of_mem _ hmem, hnone⟩

/-- A source with the values of the options, or the refusal of a value or of their number. -/
theorem new_cases (o : GenerateOptions) :
    (∃ vs, List.Forall₂ (fun y v => Value.ofYaml? y o.fieldKind = some v) o.values vs ∧
      o.values.length * o.count.toNat < 2 ^ 64 ∧
      new o = .ok (o.source vs)) ∨
    ∃ text, new o = .error text ∧
      ((∃ y ∈ o.values, Value.ofYaml? y o.fieldKind = none) ∨
        2 ^ 64 ≤ o.values.length * o.count.toNat) := by
  have hnew : new o = (convert o.fieldKind o.values).bind fun vs =>
      if vs.length * o.count.toNat < UInt64.size then .ok (o.source vs)
      else .error (Text.showNat vs.length ++ " values repeated " ++ Text.showNat o.count.toNat ++
        " times is too many rows") := rfl
  rw [hnew]
  rcases convert_cases o.fieldKind o.values with ⟨vs, hvs, hall⟩ | ⟨text, htext, hnone⟩
  · rw [hvs, hall.length_eq]
    dsimp only [Except.bind]
    by_cases hsize : vs.length * o.count.toNat < UInt64.size
    · exact Or.inl ⟨vs, hall, hsize, if_pos hsize⟩
    · exact Or.inr ⟨_, if_neg hsize, Or.inr (Nat.le_of_not_lt hsize)⟩
  · rw [htext]
    exact Or.inr ⟨text, rfl, Or.inl hnone⟩

theorem new_eq_error_iff (o : GenerateOptions) : (∃ text, new o = .error text) ↔
    (∃ y ∈ o.values, Value.ofYaml? y o.fieldKind = none) ∨
      2 ^ 64 ≤ o.values.length * o.count.toNat := by
  rcases new_cases o with ⟨vs, hall, hsize, hnew⟩ | ⟨text, htext, hwhy⟩
  · refine iff_of_false ?_ ?_
    · rintro ⟨text, htext⟩
      rw [hnew] at htext
      cases htext
    · rintro (⟨y, hy, hnone⟩ | hlarge)
      · obtain ⟨v, -, hv⟩ := exists_of_forall₂ hall y hy
        rw [hnone] at hv
        cases hv
      · exact Nat.not_lt.mpr hlarge hsize
  · exact iff_of_true ⟨text, htext⟩ hwhy

/-! ### The rows of a source -/

/-- The rows that are still to be written. -/
def left (t : GenerateRows) : List Entry := t.rows.drop t.emitted.toNat

/-- A list of values read over and over, a position at a time, is the list repeated. -/
theorem map_mod_range (vs : List Value) (count : Nat) :
    (List.range (vs.length * count)).map (fun n => (vs[n % vs.length]?).getD .null) =
      (List.replicate count vs).flatten := by
  induction count with
  | zero => rfl
  | succ count ih =>
    have hround : (List.range vs.length).map
        (fun i => (vs[(vs.length * count + i) % vs.length]?).getD .null) = vs := by
      refine List.ext_getElem (by simp) fun i _ hi => ?_
      rw [List.getElem_map, List.getElem_range, Nat.mul_add_mod, Nat.mod_eq_of_lt hi,
        List.getElem?_eq_getElem hi, Option.getD_some]
    rw [Nat.mul_succ, List.range_add, List.map_append, ih, List.map_map, List.replicate_succ',
      List.flatten_append, List.flatten_singleton]
    exact congrArg _ hround

theorem left_source (o : GenerateOptions) {vs : List Value}
    (hsize : vs.length * o.count.toNat < 2 ^ 64) : (o.source vs).left = o.rows vs := by
  have htotal : (o.source vs).total.toNat = vs.length * o.count.toNat :=
    UInt64.toNat_ofNat_of_lt' hsize
  have hleft : (o.source vs).left = (o.source vs).rows := List.drop_zero
  rw [hleft, rows, htotal, GenerateOptions.rows, ← map_mod_range, List.map_map]
  refine List.map_congr_left fun n _ => ?_
  simp [row, GenerateOptions.source, GenerateOptions.entry]

theorem length_rows (t : GenerateRows) : t.rows.length = t.total.toNat := by
  rw [rows, List.length_map, List.length_range]

/-! ### Calls -/

/-- A run of calls, one for each reply of the outputs, in the state that the call before has left: what
is seen of the calls, and the state after them. There is a row to read in every call. -/
def run (unread : Entry) (t : GenerateRows) :
    List (Except TransformError Unit) → Option (List Plan.Seen × GenerateRows)
  | [] => some ([], t)
  | reply :: replies => do
    let (seen, now) ← Plan.visit reply (Transform.process t) t (some unread)
    let (rest, last) ← run unread now replies
    return (seen :: rest, last)

/-- The source has written one more row. -/
def advance (t : GenerateRows) : GenerateRows := { t with emitted := t.emitted + 1 }

theorem left_cons {t : GenerateRows} {e : Entry} {rest : List Entry} (h : t.left = e :: rest) :
    t.emitted.toNat < t.total.toNat ∧ e = t.row t.emitted.toNat ∧
      rest = t.rows.drop (t.emitted.toNat + 1) := by
  have hlt : t.emitted.toNat < t.rows.length := by
    by_contra hge
    rw [left, List.drop_of_length_le (Nat.le_of_not_lt hge)] at h
    cases h
  rw [left, List.drop_eq_getElem_cons hlt] at h
  obtain ⟨he, hrest⟩ := List.cons.inj h
  refine ⟨length_rows t ▸ hlt, ?_, hrest.symm⟩
  rw [← he]
  simp [rows]

theorem visit_cons {t : GenerateRows} {e : Entry} {rest : List Entry} (h : t.left = e :: rest)
    (unread : Entry) (reply : Except TransformError Unit) :
    Plan.visit reply (Transform.process t) t (some unread) =
      some (⟨some unread, [e], reply.map fun _ => true⟩,
        match reply with
        | .ok () => t.advance
        | .error _ => t) := by
  obtain ⟨hlt, he, -⟩ := left_cons h
  have hnext : t.next? = some e := by
    rw [next?, if_pos (UInt64.lt_iff_toNat_lt.mpr hlt), he]
    rfl
  unfold Transform.process instTransformGenerateRows
  simp only [hnext]
  cases reply <;> rfl

theorem visit_nil {t : GenerateRows} (h : t.left = []) (unread : Entry)
    (reply : Except TransformError Unit) :
    Plan.visit reply (Transform.process t) t (some unread) =
      some (⟨some unread, [], .ok false⟩, t) := by
  have hle : t.total.toNat ≤ t.emitted.toNat := by
    rw [← length_rows]
    exact List.drop_eq_nil_iff.mp h
  have hnext : t.next? = none :=
    if_neg fun hlt => Nat.not_lt.mpr hle (UInt64.lt_iff_toNat_lt.mp hlt)
  unfold Transform.process instTransformGenerateRows
  simp only [hnext]
  rfl

/-- The number of rows is one of 64 bits, so the position does not wrap. -/
theorem left_advance {t : GenerateRows} {e : Entry} {rest : List Entry} (h : t.left = e :: rest) :
    t.advance.emitted.toNat = t.emitted.toNat + 1 ∧ t.advance.left = rest := by
  obtain ⟨hlt, -, hrest⟩ := left_cons h
  have hsucc : t.advance.emitted.toNat = t.emitted.toNat + 1 := by
    have := t.total.toNat_lt
    rw [advance, UInt64.toNat_add]
    exact Nat.mod_eq_of_lt (by show t.emitted.toNat + 1 < 2 ^ 64; omega)
  refine ⟨hsucc, ?_⟩
  rw [left, hsucc, hrest]
  rfl

/-- **A run of calls** writes the rows that are left, and changes nothing but the position, which counts
the rows that have been taken. -/
theorem run_eq (t : GenerateRows) (unread : Entry) (replies : List (Except TransformError Unit)) :
    ∃ n, t.run unread replies =
        some (Plan.Seen.ofRows unread t.left replies, { t with emitted := n }) ∧
      n.toNat = t.emitted.toNat + (Plan.Seen.ofRows unread t.left replies).countP
        (·.answer = .ok true) := by
  induction replies generalizing t with
  | nil => exact ⟨t.emitted, rfl, rfl⟩
  | cons reply replies ih =>
    rw [run]
    rcases hleft : t.left with _ | ⟨e, rest⟩
    · obtain ⟨n, hrun, hn⟩ := ih t
      rw [hleft] at hrun hn
      refine ⟨n, ?_, ?_⟩
      · simp only [visit_nil hleft, hrun, bind, Option.bind, pure, Plan.Seen.ofRows]
      · rw [hn, Plan.Seen.ofRows]
        rfl
    · rcases reply with err | _
      · obtain ⟨n, hrun, hn⟩ := ih t
        rw [hleft] at hrun hn
        refine ⟨n, ?_, ?_⟩
        · simp only [visit_cons hleft, hrun, bind, Option.bind, pure, Plan.Seen.ofRows, Except.map]
        · rw [hn, Plan.Seen.ofRows]
          rfl
      · obtain ⟨hsucc, hrest⟩ := left_advance hleft
        obtain ⟨n, hrun, hn⟩ := ih t.advance
        rw [hrest] at hrun hn
        refine ⟨n, ?_, ?_⟩
        · simp only [visit_cons hleft, hrun, bind, Option.bind, pure, Plan.Seen.ofRows, Except.map]
          rfl
        · rw [hn, hsucc, Plan.Seen.ofRows, List.countP_cons_of_pos (by rfl)]
          omega

theorem run_source (o : GenerateOptions) {vs : List Value}
    (hsize : vs.length * o.count.toNat < 2 ^ 64) (unread : Entry)
    (replies : List (Except TransformError Unit)) :
    ∃ last, (o.source vs).run unread replies =
        some (Plan.Seen.ofRows unread (o.rows vs) replies, last) ∧
      last.emitted.toNat = (Plan.Seen.ofRows unread (o.rows vs) replies).countP
        (·.answer = .ok true) ∧
      ∀ e, last.next? = some e → 0 < last.values.size := by
  obtain ⟨n, hrun, hn⟩ := (o.source vs).run_eq unread replies
  rw [left_source o hsize] at hrun hn
  refine ⟨_, hrun, ?_, fun e he => ?_⟩
  · rw [hn]
    exact Nat.zero_add _
  · -- there are rows to write only if there are values
    rw [next?] at he
    split at he
    case isTrue hlt =>
      have htotal : (o.source vs).total.toNat = vs.length * o.count.toNat :=
        UInt64.toNat_ofNat_of_lt' hsize
      have hpos : 0 < vs.length * o.count.toNat := by
        rw [← htotal]
        exact Nat.zero_lt_of_lt (UInt64.lt_iff_toNat_lt.mp hlt)
      show 0 < vs.toArray.size
      rw [List.size_toArray]
      exact Nat.pos_of_mul_pos_right hpos
    case isFalse => cases he

theorem conforms_of_mem_rows {o : GenerateOptions} {vs : List Value}
    (h : List.Forall₂ (fun y v => Value.ofYaml? y o.fieldKind = some v) o.values vs) :
    ∀ e ∈ o.rows vs, e.Conforms := by
  intro e he
  obtain ⟨v, hv, rfl⟩ := List.mem_map.mp he
  obtain ⟨vs', hvs', hv⟩ := List.mem_flatten.mp hv
  rw [(List.mem_replicate.mp hvs').2] at hv
  obtain ⟨y, -, hy⟩ := exists_of_forall₂ h.flip v hv
  exact Row.conforms_iff.mpr (.cons (Value.fits_of_ofYaml? hy) .nil)

/-! ### Main statement -/

/-- **Generated rows.** Options are refused exactly if some value has no form of the kind or the number
of rows is none of 64 bits. A source that has been made writes the values, in order and as often as it
should, one in each call that is not refused, and then answers that there is nothing more to do. -/
theorem generates_rows (o : GenerateOptions) :
    ((∃ text, new o = .error text) ↔
      (∃ y ∈ o.values, Value.ofYaml? y o.fieldKind = none) ∨
        2 ^ 64 ≤ o.values.length * o.count.toNat) ∧
    ∀ t, new o = .ok t → ∃ vs,
      List.Forall₂ (fun y v => Value.ofYaml? y o.fieldKind = some v) o.values vs ∧
      (o.rows vs).length = o.values.length * o.count.toNat ∧ (∀ e ∈ o.rows vs, e.Conforms) ∧
      -- as long as rows are taken, there is one in each call, and none later
      (∀ unread n, ∃ last, t.run unread (.replicate n (.ok ())) =
        some (((o.rows vs).take n).map (fun e => ⟨some unread, [e], .ok true⟩) ++
          .replicate (n - (o.rows vs).length) ⟨some unread, [], .ok false⟩, last)) ∧
      ∀ unread replies, ∃ last,
        -- a row that is refused comes again
        t.run unread replies = some (Plan.Seen.ofRows unread (o.rows vs) replies, last) ∧
        -- the position counts the rows that have been taken
        last.emitted.toNat = (Plan.Seen.ofRows unread (o.rows vs) replies).countP
          (·.answer = .ok true) ∧
        -- where a value is looked up, there are values
        ∀ e, last.next? = some e → 0 < last.values.size := by
  refine ⟨new_eq_error_iff o, fun t ht => ?_⟩
  rcases new_cases o with ⟨vs, hall, hsize, hnew⟩ | ⟨text, htext, -⟩
  · obtain rfl := Except.ok.inj (hnew.symm.trans ht)
    rw [hall.length_eq] at hsize ⊢
    refine ⟨vs, hall, o.length_rows vs, conforms_of_mem_rows hall, fun unread n => ?_,
      run_source o hsize⟩
    obtain ⟨last, hrun, -⟩ := run_source o hsize unread (.replicate n (.ok ()))
    exact ⟨last, by rw [hrun, Plan.Seen.ofRows_ok]⟩
  · rw [htext] at ht
    cases ht

end GenerateRows

/-! Three values twice, of which one row is refused at first. -/

namespace Twice

def options : GenerateOptions where
  field := "n"
  values := [.integer 1, .string " 2 ", .null]
  count := 2

def values : List Value := [.integer 1, .integer 2, .null]

def unread : Entry := ⟨⟨[]⟩, ⟨[]⟩⟩

def row (v : Value) : Entry := ⟨⟨[⟨"n", .integer, -1, -1⟩]⟩, ⟨[v]⟩⟩

def replies : List (Except TransformError Unit) :=
  [.ok (), .error (.fatal "gone"), .ok (), .ok (), .ok (), .ok (), .ok (), .ok ()]

end Twice

theorem GenerateRows.generates_rows_twice :
    GenerateRows.new Twice.options = .ok (Twice.options.source Twice.values) ∧
    ∃ last, (Twice.options.source Twice.values).run Twice.unread Twice.replies = some
      ([⟨some Twice.unread, [Twice.row (.integer 1)], .ok true⟩,
        ⟨some Twice.unread, [Twice.row (.integer 2)], .error (.fatal "gone")⟩,
        ⟨some Twice.unread, [Twice.row (.integer 2)], .ok true⟩,
        ⟨some Twice.unread, [Twice.row .null], .ok true⟩,
        ⟨some Twice.unread, [Twice.row (.integer 1)], .ok true⟩,
        ⟨some Twice.unread, [Twice.row (.integer 2)], .ok true⟩,
        ⟨some Twice.unread, [Twice.row .null], .ok true⟩,
        ⟨some Twice.unread, [], .ok false⟩], last) ∧ last.emitted.toNat = 6 := by
  have made : GenerateRows.new Twice.options = .ok (Twice.options.source Twice.values) := by rfl
  obtain ⟨vs, hall, -, -, -, hrun⟩ := (GenerateRows.generates_rows Twice.options).2 _ made
  have hvalues : vs = Twice.values := by
    have hkind : Twice.options.fieldKind = .integer := rfl
    rw [hkind] at hall
    rcases hall with _ | ⟨h1, _ | ⟨h2, _ | ⟨h3, _ | _⟩⟩⟩
    rw [← Option.some.inj h1, ← Option.some.inj h2, ← Option.some.inj h3]
    rfl
  subst hvalues
  obtain ⟨last, hlast, hcount, -⟩ := hrun Twice.unread Twice.replies
  exact ⟨made, last, hlast, hcount⟩

end Rowflow
