import Mathlib.Data.List.Forall2
import Rowflow.Proofs.Json.Tokens

/-!
# JSON is read as it is written

A text reads as a value if, at the front of a longer text, it is read as this value and what follows is
left (`Reads`). The texts of arrays and objects are put together from texts that read as their items and
members, so every value reads back from its own text (`parse?_render`) as long as its numbers do and its
integers fit into 64 bits (`Legible`).
-/

namespace Rowflow.Json

/-! ### Texts that are read as a value -/

/-- At the front of a text that does not go on with a number, `cs` is read as the value, blanks apart.
The bound on the nesting is the length of the text. -/
def Reads (cs : List Char) (v : Json) : Prop :=
  ∀ (fuel : Nat) (t : List Char), cs.length < fuel → Ends t →
    ∃ rest, parseValue fuel (skipBlanks (cs ++ t)) = some (v, rest) ∧ skipBlanks rest = skipBlanks t

theorem parse?_of_reads {s : String} {v : Json} (h : Reads s.toList v) : parse? s = some v := by
  obtain ⟨rest, hparse, hrest⟩ := h _ [] (Nat.lt_succ_self _) fun c hc => by cases hc
  rw [List.append_nil] at hparse
  unfold parse?
  dsimp only
  rw [hparse]
  exact if_pos hrest

theorem skipBlanks_cons {c : Char} (h : c ≠ ' ' ∧ c ≠ '\n' ∧ c ≠ '\r' ∧ c ≠ '\t') (cs : List Char) :
    skipBlanks (c :: cs) = c :: cs :=
  List.dropWhile_cons_of_neg (by simpa [not_or, and_assoc] using h)

theorem reads_of_parseValue {c : Char} {cs : List Char} {v : Json}
    (hc : c ≠ ' ' ∧ c ≠ '\n' ∧ c ≠ '\r' ∧ c ≠ '\t')
    (h : ∀ fuel t, cs.length < fuel → parseValue (fuel + 1) (c :: cs ++ t) = some (v, t)) :
    Reads (c :: cs) v := by
  intro fuel t hfuel _
  obtain ⟨fuel, rfl⟩ := Nat.exists_eq_add_of_lt hfuel
  refine ⟨t, ?_, rfl⟩
  rw [List.cons_append, skipBlanks_cons hc]
  exact h _ t (by rw [List.length_cons]; omega)

theorem reads_null : Reads ['n', 'u', 'l', 'l'] .null :=
  reads_of_parseValue (by decide) fun _ _ _ => rfl

theorem reads_bool (b : Bool) : Reads (render (.bool b)).toList (.bool b) := by
  cases b
  · have htext : (render (.bool false)).toList = ['f', 'a', 'l', 's', 'e'] := rfl
    exact htext ▸ reads_of_parseValue (by decide) fun _ _ _ => rfl
  · have htext : (render (.bool true)).toList = ['t', 'r', 'u', 'e'] := rfl
    exact htext ▸ reads_of_parseValue (by decide) fun _ _ _ => rfl

theorem toList_renderString (s : String) :
    (renderString s).toList = '"' :: (s.toList.flatMap escapeChar ++ ['"']) :=
  String.toList_ofList

theorem reads_string (s : String) : Reads (renderString s).toList (.string s) := by
  rw [toList_renderString]
  refine reads_of_parseValue (by decide) fun fuel t _ => ?_
  have hparse : parseString (s.toList.flatMap escapeChar ++ ['"'] ++ t) = some (s.toList, t) := by
    rw [List.append_assoc]
    exact parseString_flatMap s.toList t
  change (parseString (s.toList.flatMap escapeChar ++ ['"'] ++ t)).map _ = _
  rw [hparse]
  exact congrArg (fun s => some (Json.string s, t)) String.ofList_toList

/-! ### Numbers -/

/-- What begins like a number is no other value. -/
theorem parseValue_number {c : Char} (hc : c = '-' ∨ c.isDigit = true) (fuel : Nat) (cs : List Char) :
    parseValue (fuel + 1) (c :: cs) = parseNumber (c :: cs) := by
  have hhead : ∀ {d : Char} {rest}, c :: cs = d :: rest → d ≠ '-' → d.isDigit = false → False := by
    intro d rest heq hminus hdigit
    obtain ⟨rfl, -⟩ := List.cons.inj heq
    rcases hc with hc | hc
    · exact hminus hc
    · rw [hc] at hdigit
      cases hdigit
  refine parseValue.eq_8 _ fuel ?_ ?_ ?_ ?_ ?_ ?_
  all_goals exact fun _ heq => hhead heq (by decide) (by decide)

theorem parseNumber_of_parseValue {fuel : Nat} {cs rest : List Char} {x : Binary64}
    (h : parseValue fuel cs = some (.number x, rest)) : parseNumber cs = some (.number x, rest) := by
  rw [parseValue.eq_def] at h
  split at h
  · cases h
  · split at h
    · cases h
    · cases h
    · cases h
    · obtain ⟨_, -, heq⟩ := Option.map_eq_some_iff.mp h
      cases heq
    · split at h
      · cases h
      · obtain ⟨_, -, heq⟩ := Option.map_eq_some_iff.mp h
        cases heq
    · split at h
      · cases h
      · obtain ⟨_, -, heq⟩ := Option.map_eq_some_iff.mp h
        cases heq
    · exact h

theorem reads_of_parseNumber {cs rest : List Char} {v : Json}
    (h : parseNumber (skipBlanks cs) = some (v, rest)) (hrest : skipBlanks rest = []) : Reads cs v := by
  intro fuel t hfuel ht
  obtain ⟨fuel, rfl⟩ := Nat.exists_eq_add_of_lt hfuel
  obtain ⟨c, cs', hcs, hc⟩ := parseNumber_head h
  have hfront : skipBlanks (cs ++ t) = skipBlanks cs ++ t := by
    unfold skipBlanks at hcs ⊢
    rw [List.dropWhile_append, hcs]
    rfl
  have hback : skipBlanks (rest ++ t) = skipBlanks t := by
    unfold skipBlanks at hrest ⊢
    rw [List.dropWhile_append, hrest]
    rfl
  have hnumber := parseNumber_append h ht
  rw [hcs, List.cons_append] at hnumber
  refine ⟨rest ++ t, ?_, hback⟩
  rw [hfront, hcs, List.cons_append, parseValue_number hc, hnumber]

theorem reads_integer {n : Int} (hlow : Int64.minValue.toInt ≤ n) (hhigh : n < UInt64.size) :
    Reads (Text.showInt n).toList (.integer n) := by
  have hnumber := parseNumber_showInt hlow hhigh
  obtain ⟨c, cs, hcs, hc⟩ := parseNumber_head hnumber
  have hblank : c ≠ ' ' ∧ c ≠ '\n' ∧ c ≠ '\r' ∧ c ≠ '\t' := by
    refine ⟨?_, ?_, ?_, ?_⟩ <;> rintro rfl <;> simp at hc
  have hskip : skipBlanks (Text.showInt n).toList = (Text.showInt n).toList := by
    rw [hcs, skipBlanks_cons hblank]
  exact reads_of_parseNumber (hskip.symm ▸ hnumber) rfl

/-- A number whose text is read as the number reads so wherever its text stands. -/
theorem reads_number {x : Binary64} (h : parse? (x.render .json) = some (.number x)) :
    Reads (x.render .json).toList (.number x) := by
  unfold parse? at h
  dsimp only at h
  split at h
  case h_1 v rest hparse =>
    split at h
    case isTrue hrest =>
      cases h
      exact reads_of_parseNumber (parseNumber_of_parseValue hparse) hrest
    case isFalse => cases h
  case h_2 => cases h

/-! ### Texts with commas between them -/

/-- Neither a comma nor a closing bracket can belong to a number. -/
theorem ends_cons {c : Char} (hc : c = ',' ∨ c = ']' ∨ c = '\x7d') (t : List Char) : Ends (c :: t) := by
  intro d hd
  cases hd
  rcases hc with rfl | rfl | rfl <;> decide

/-- Texts with commas between them. -/
def commas (texts : List (List Char)) : List Char := [','].intercalate texts

theorem commas_singleton (text : List Char) : commas [text] = text := List.intercalate_singleton

theorem commas_cons (text text' : List Char) (texts : List (List Char)) :
    commas (text :: text' :: texts) = text ++ ',' :: commas (text' :: texts) :=
  List.intercalate_cons_cons.trans (List.append_assoc ..)

/-- Entries are read one by one: what follows the text of an entry is a comma and the next one, or the
character that closes the list. -/
structure ReadsEntries {α : Type} (reads : List Char → α → Prop)
    (parse : Nat → List Char → Option (List α × List Char)) (close : Char) : Prop where
  last {text v fuel rest} : reads text v → text.length < fuel →
    parse (fuel + 1) (skipBlanks (text ++ close :: rest)) = some ([v], rest)
  more {text v fuel rest} : reads text v → text.length < fuel →
    parse (fuel + 1) (skipBlanks (text ++ ',' :: rest)) =
      (parse fuel (skipBlanks rest)).map fun (vs, rest) => (v :: vs, rest)

theorem ReadsEntries.parse_commas {α : Type} {reads : List Char → α → Prop}
    {parse : Nat → List Char → Option (List α × List Char)} {close : Char}
    (h : ReadsEntries reads parse close) {texts : List (List Char)} {vs : List α}
    (hvs : List.Forall₂ reads texts vs) (hne : vs ≠ []) {fuel : Nat} (t : List Char)
    (hfuel : (commas texts).length + 1 < fuel) :
    parse fuel (skipBlanks (commas texts ++ close :: t)) = some (vs, t) := by
  -- the entries that are left have shorter texts, so the smaller bound is still enough
  induction hvs generalizing fuel with
  | nil => exact absurd rfl hne
  | @cons text v texts vs hv hvs ih =>
    obtain ⟨fuel, rfl⟩ : ∃ n, fuel = n + 1 := ⟨fuel - 1, by omega⟩
    cases hvs with
    | nil =>
      rw [commas_singleton] at hfuel ⊢
      exact h.last hv (by omega)
    | @cons text' v' texts vs hv' hvs =>
      rw [commas_cons, List.length_append, List.length_cons] at hfuel
      have hrest : (commas (text' :: texts)).length + 1 < fuel := by omega
      rw [commas_cons, List.append_assoc, List.cons_append, h.more hv (by omega),
        ih (List.cons_ne_nil _ _) hrest, Option.map_some]

/-! ### Arrays -/

theorem parseItems_item {text : List Char} {v : Json} (hv : Reads text v) {fuel : Nat}
    (hfuel : text.length < fuel) {after : List Char} (ht : Ends after) :
    parseItems (fuel + 1) (skipBlanks (text ++ after)) =
      match skipBlanks after with
      | ']' :: rest => some ([v], rest)
      | ',' :: rest => (parseItems fuel (skipBlanks rest)).map fun (vs, rest) => (v :: vs, rest)
      | _ => none := by
  obtain ⟨rest, hparse, hrest⟩ := hv fuel after hfuel ht
  have hstep := parseItems.eq_2 (skipBlanks (text ++ after)) fuel
  simp only [hparse, hrest] at hstep
  exact hstep

theorem readsEntries_items : ReadsEntries Reads parseItems ']' where
  last hv hfuel := by
    rw [parseItems_item hv hfuel (ends_cons (by simp) _), skipBlanks_cons (by decide)]
    rfl
  more hv hfuel := by
    rw [parseItems_item hv hfuel (ends_cons (by simp) _), skipBlanks_cons (by decide)]
    rfl

theorem parseItems_bracket (fuel : Nat) (cs : List Char) : parseItems fuel (']' :: cs) = none := by
  rcases fuel with _ | _ | fuel <;> rfl

theorem parseValue_bracket {fuel : Nat} {cs rest : List Char} {vs : List Json}
    (h : parseItems fuel (skipBlanks cs) = some (vs, rest)) :
    parseValue (fuel + 1) ('[' :: cs) = some (.array vs, rest) := by
  have hopen : ∀ cs', skipBlanks cs ≠ ']' :: cs' := by
    intro cs' heq
    rw [heq, parseItems_bracket] at h
    cases h
  rw [parseValue.eq_6]
  split
  · exact absurd ‹_› (hopen _)
  · rw [h]
    rfl

/-- **An array** reads from the texts of its items. -/
theorem reads_array {texts : List (List Char)} {vs : List Json} (h : List.Forall₂ Reads texts vs) :
    Reads ('[' :: (commas texts ++ [']'])) (.array vs) := by
  refine reads_of_parseValue (by decide) fun fuel t hfuel => ?_
  rw [List.length_append, List.length_singleton] at hfuel
  rw [List.cons_append, List.append_assoc, List.singleton_append]
  by_cases hvs : vs = []
  · subst hvs
    cases h
    rfl
  · exact parseValue_bracket (readsEntries_items.parse_commas h hvs t hfuel)

/-! ### Objects -/

/-- The text is a key, a colon and a text that reads as the value of the member. -/
def ReadsMember (cs : List Char) (m : String × Json) : Prop :=
  ∃ text, cs = (renderString m.1).toList ++ ':' :: text ∧ Reads text m.2

theorem parseMembers_member {cs : List Char} {m : String × Json} (hm : ReadsMember cs m) {fuel : Nat}
    (hfuel : cs.length < fuel) {after : List Char} (ht : Ends after) :
    parseMembers (fuel + 1) (skipBlanks (cs ++ after)) =
      match skipBlanks after with
      | '\x7d' :: rest => some ([m], rest)
      | ',' :: rest => (parseMembers fuel (skipBlanks rest)).map fun (ms, rest) => (m :: ms, rest)
      | _ => none := by
  obtain ⟨text, hcs, hv⟩ := hm
  rw [hcs, List.length_append, List.length_cons] at hfuel
  obtain ⟨rest, hparse, hrest⟩ := hv fuel after (by omega) ht
  have hkey : (renderString m.1).toList ++ ':' :: text ++ after =
      '"' :: (m.1.toList.flatMap escapeChar ++ '"' :: ':' :: (text ++ after)) := by
    rw [toList_renderString]
    simp only [List.cons_append, List.append_assoc, List.nil_append]
  have hcolon : skipBlanks (':' :: (text ++ after)) = ':' :: (text ++ after) :=
    skipBlanks_cons (by decide) _
  have hstep := parseMembers.eq_2 fuel (m.1.toList.flatMap escapeChar ++ '"' :: ':' :: (text ++ after))
  simp only [parseString_flatMap, hcolon, hparse, hrest, String.ofList_toList] at hstep
  rw [hcs, hkey, skipBlanks_cons (by decide)]
  exact hstep

theorem readsEntries_members : ReadsEntries ReadsMember parseMembers '\x7d' where
  last hm hfuel := by
    rw [parseMembers_member hm hfuel (ends_cons (by simp) _), skipBlanks_cons (by decide)]
    rfl
  more hm hfuel := by
    rw [parseMembers_member hm hfuel (ends_cons (by simp) _), skipBlanks_cons (by decide)]
    rfl

theorem parseValue_brace {fuel : Nat} {cs rest : List Char} {ms : List (String × Json)}
    (h : parseMembers fuel (skipBlanks cs) = some (ms, rest)) :
    parseValue (fuel + 1) ('\x7b' :: cs) = some (.object ms, rest) := by
  have hopen : ∀ cs', skipBlanks cs ≠ '\x7d' :: cs' := by
    intro cs' heq
    rw [heq] at h
    rcases fuel with _ | fuel <;> cases h
  rw [parseValue.eq_7]
  split
  · exact absurd ‹_› (hopen _)
  · rw [h]
    rfl

/-- **An object** reads from the texts of its members. -/
theorem reads_object {texts : List (List Char)} {ms : List (String × Json)}
    (h : List.Forall₂ ReadsMember texts ms) :
    Reads ('\x7b' :: (commas texts ++ ['\x7d'])) (.object ms) := by
  refine reads_of_parseValue (by decide) fun fuel t hfuel => ?_
  rw [List.length_append, List.length_singleton] at hfuel
  rw [List.cons_append, List.append_assoc, List.singleton_append]
  by_cases hms : ms = []
  · subst hms
    cases h
    rfl
  · exact parseValue_brace (readsEntries_members.parse_commas h hms t hfuel)

/-! ### Values -/

/-- The numbers of a value are read back from their texts, and its integers fit into 64 bits, with or
without a sign. -/
inductive Legible : Json → Prop where
  | null : Legible .null
  | bool (b : Bool) : Legible (.bool b)
  | integer (n : Int) (low : Int64.minValue.toInt ≤ n) (high : n < UInt64.size) : Legible (.integer n)
  | number (x : Binary64) (back : parse? (x.render .json) = some (.number x)) : Legible (.number x)
  | string (s : String) : Legible (.string s)
  | array (items : List Json) (each : ∀ v ∈ items, Legible v) : Legible (.array items)
  | object (members : List (String × Json)) (each : ∀ m ∈ members, Legible m.2) :
      Legible (.object members)

theorem toList_render_array (items : List Json) : (render (.array items)).toList =
    '[' :: (commas (items.map fun v => v.render.toList) ++ [']']) := by
  have hitems : renderItems items = items.map render := by
    induction items with
    | nil => rfl
    | cons v rest ih => rw [renderItems, ih, List.map_cons]
  rw [render, hitems, String.toList_append, String.toList_append, String.toList_intercalate,
    List.map_map]
  rfl

theorem toList_render_object (members : List (String × Json)) : (render (.object members)).toList =
    '\x7b' :: (commas (members.map fun m =>
      (renderString m.1).toList ++ ':' :: m.2.render.toList) ++ ['\x7d']) := by
  have hmembers : (renderMembers members).map String.toList =
      members.map fun m => (renderString m.1).toList ++ ':' :: m.2.render.toList := by
    induction members with
    | nil => rfl
    | cons m rest ih =>
      rw [renderMembers, List.map_cons, List.map_cons, ih, String.toList_append, String.toList_append,
        List.append_assoc]
      rfl
  rw [render, String.toList_append, String.toList_append, String.toList_intercalate, hmembers]
  rfl

/-- The text of a value reads as the value. -/
theorem Legible.reads {v : Json} (h : v.Legible) : Reads v.render.toList v := by
  induction h with
  | null => exact reads_null
  | bool b => exact reads_bool b
  | integer n low high => exact reads_integer low high
  | number x back => exact reads_number back
  | string s => exact reads_string s
  | array items _ ih =>
    rw [toList_render_array]
    refine reads_array (List.forall₂_map_left_iff.mpr ?_)
    exact List.forall₂_same.mpr ih
  | object members _ ih =>
    rw [toList_render_object]
    refine reads_object (List.forall₂_map_left_iff.mpr ?_)
    exact List.forall₂_same.mpr fun m hm => ⟨_, rfl, ih m hm⟩

/-- **A value** is read back from its text. -/
theorem parse?_render {v : Json} (h : v.Legible) : parse? v.render = some v := parse?_of_reads h.reads

end Rowflow.Json
