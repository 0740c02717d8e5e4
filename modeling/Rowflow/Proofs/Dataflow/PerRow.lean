import Mathlib.Data.List.Nodup
import Rowflow.Proofs.Dataflow.Emission

/-!
# Row by row

What a worker gives to one of its row sets for a row does not depend on the rows before, unless its
rows take turns among several outputs: then it is `Conduct.out` for an output and `Conduct.err` for
the row set of failing rows. If all rows of a list are handled, a row set gets just what its rows
amount to, one by one (`Outlet.sentTo_out`, `Outlet.sentTo_err`).
-/

namespace Rowflow

/-- The entry that goes along the hop to a transform for a row, if any. -/
def Conduct.out (conduct : Conduct) (t : String) (e : Entry) : Option Entry :=
  match conduct.verdict e with
  | .pass out => some out
  | .send target out => if target = t then some out else none
  | _ => none

/-- The entry that goes where failing rows go for a row, if any. -/
def Conduct.err (conduct : Conduct) (h : ErrorHandling) (e : Entry) : Option Entry :=
  match conduct.verdict e with
  | .reject message field code => some (h.diverted e (.ofRow message field code))
  | _ => none

/-- If every row amounts to one entry for a row set at most, whatever came before, so does a list of
rows that are all handled. -/
theorem sentTo_play {τ : Type} {act : τ → Entry → Option (τ × List (Nat × Entry))} {i : Nat}
    {f : Entry → Option Entry}
    (hact : ∀ t e u os, act t e = some (u, os) → sentTo i os = (f e).toList) {t u : τ}
    {feed : List Entry} (hr : reach act t feed = some u) :
    sentTo i (play act t feed) = feed.filterMap f := by
  induction feed generalizing t with
  | nil => rfl
  | cons e rest ih =>
    rcases h : act t e with _ | ⟨t', os⟩
    · rw [reach_cons_none h] at hr
      cases hr
    · rw [reach_cons h] at hr
      rw [play_cons h, sentTo_append, hact t e t' os h, ih hr]
      rcases hf : f e with _ | out
      · rw [List.filterMap_cons_none hf]
        rfl
      · rw [List.filterMap_cons_some hf]
        rfl

namespace Outlet

/-- Outputs and the row set of failing rows are told apart by their positions, outputs by the
transforms they lead to. -/
structure Distinct (o : Outlet) : Prop where
  positions : (o.outputs.map Prod.snd).Nodup
  targets : ∀ t i j, (t, i) ∈ o.outputs → (t, j) ∈ o.outputs → i = j
  errors : ∀ i h, o.errors = some (i, h) → i ∉ o.outputs.map Prod.snd

/-- No rows take turns among several outputs. -/
def Settled (o : Outlet) (conduct : Conduct) : Prop :=
  o.movement = .copy ∨ o.outputs.length ≤ 1 ∨ ∀ e out, conduct.verdict e ≠ .pass out

variable {o : Outlet} {conduct : Conduct} {i : Nat}

theorem sentTo_copy {outputs : List (String × Nat)} (h : (outputs.map Prod.snd).Nodup)
    (out : Entry) :
    sentTo i (outputs.map fun x => (x.2, out)) = if i ∈ outputs.map Prod.snd then [out] else [] := by
  induction outputs with
  | nil => rfl
  | cons x rest ih =>
    obtain ⟨hx, hrest⟩ := List.nodup_cons.mp h
    have hcons : sentTo i ((x :: rest).map fun x => (x.2, out)) =
        (if x.2 = i then [out] else []) ++ sentTo i (rest.map fun x => (x.2, out)) := by
      by_cases hxi : x.2 = i <;> simp [sentTo, hxi]
    rw [hcons, ih hrest]
    by_cases hxi : x.2 = i
    · subst hxi
      rw [if_pos rfl, if_neg hx, List.map_cons, if_pos List.mem_cons_self]
      rfl
    · rw [if_neg hxi, List.nil_append]
      refine if_congr ?_ rfl rfl
      rw [List.map_cons, List.mem_cons]
      exact ⟨Or.inr, fun h => h.resolve_left (Ne.symm hxi)⟩

theorem sentTo_singleton (j : Nat) (out : Entry) :
    sentTo i [(j, out)] = if j = i then [out] else [] := by
  by_cases h : j = i <;> simp [sentTo, h]

/-- What is emitted for a row with a verdict, whatever came before. -/
inductive Emits (o : Outlet) (e : Entry) : Verdict → List (Nat × Entry) → Prop where
  | copy (out : Entry) (movement : o.movement = .copy) :
      Emits o e (.pass out) (o.outputs.map fun x => (x.2, out))
  | turn (out : Entry) (t : String) (i : Nat) (output : (t, i) ∈ o.outputs)
      (movement : o.movement = .distribute) : Emits o e (.pass out) [(i, out)]
  | nowhere (out : Entry) (outputs : o.outputs = []) : Emits o e (.pass out) []
  | send (target : String) (out : Entry) (i : Nat) (output : (target, i) ∈ o.outputs) :
      Emits o e (.send target out) [(i, out)]
  | drop : Emits o e .drop []
  | divert (message : String) (field code : Option String) (i : Nat) (h : ErrorHandling)
      (errors : o.errors = some (i, h)) : Emits o e (.reject message field code)
        [(i, h.diverted e (.ofRow message field code))]

theorem emits {tally u : Tally} {e : Entry} {v : Verdict} {os : List (Nat × Entry)}
    (h : o.emit tally e v = some (u, os)) : o.Emits e v os := by
  unfold emit at h
  rcases v with out | ⟨target, out⟩ | _ | ⟨message, field, code⟩ | err
  case pass =>
    dsimp only at h
    split at h
    case isFalse => cases h
    case isTrue =>
      rcases hm : o.movement with _ | _ <;> rw [hm] at h <;> dsimp only at h
      · cases h
        exact .copy out hm
      · rcases ho : o.outputs[tally.turn % o.outputs.length]? with _ | ⟨t, i⟩ <;> rw [ho] at h
        · cases h
          refine .nowhere out (List.length_eq_zero_iff.mp ?_)
          by_contra hne
          have := Nat.mod_lt tally.turn (Nat.pos_of_ne_zero hne)
          exact absurd (List.getElem?_eq_none_iff.mp ho) (Nat.not_le.mpr this)
        · cases h
          exact .turn out t i (List.mem_of_getElem? ho) hm
  case send =>
    dsimp only at h
    split at h
    case isFalse => cases h
    case isTrue =>
      obtain ⟨⟨t, i⟩, hx, hy⟩ := Option.map_eq_some_iff.mp h
      cases hy
      have ht : t = target := by simpa using List.find?_some hx
      exact .send target out i (ht ▸ List.mem_of_find?_eq_some hx)
  case drop =>
    cases h
    exact .drop
  case reject =>
    dsimp only at h
    rcases he : o.errors with _ | ⟨i, handling⟩ <;> rw [he] at h
    · cases h
    · obtain ⟨errors, -, heq⟩ := Option.map_eq_some_iff.mp h
      cases heq
      exact .divert message field code i handling he
  case fail => cases h

theorem deal_out (hd : o.Distinct) (hs : o.Settled conduct) {t : String} (hi : (t, i) ∈ o.outputs)
    {tally u : Tally} {e : Entry} {os : List (Nat × Entry)}
    (h : o.deal conduct tally e = some (u, os)) : sentTo i os = (conduct.out t e).toList := by
  have hmem : i ∈ o.outputs.map Prod.snd := List.mem_map.mpr ⟨_, hi, rfl⟩
  have hemits := emits h
  unfold Conduct.out
  generalize hv : conduct.verdict e = v at hemits
  cases hemits
  case copy out movement =>
    rw [sentTo_copy hd.positions, if_pos hmem]
    rfl
  case turn out t' j output movement =>
    -- the only output gets all rows
    have hone : o.outputs.length ≤ 1 := by
      rcases hs with hs | hs | hs
      · rw [hs] at movement
        cases movement
      · exact hs
      · exact absurd hv (hs e out)
    have hij : (t', j) = (t, i) := by
      rcases ho : o.outputs with _ | ⟨x, _ | ⟨y, rest⟩⟩ <;> rw [ho] at hi output hone
      · cases hi
      · rw [List.mem_singleton.mp hi, List.mem_singleton.mp output]
      · exact absurd hone (by simp)
    cases hij
    rw [sentTo_singleton, if_pos rfl]
    rfl
  case nowhere out outputs =>
    rw [outputs] at hi
    cases hi
  case send target out j output =>
    rw [sentTo_singleton]
    dsimp only
    by_cases ht : target = t
    · subst ht
      rw [if_pos (hd.targets _ j i output hi), if_pos rfl]
      rfl
    · have hij : j ≠ i := by
        rintro rfl
        exact ht (congrArg Prod.fst (List.inj_on_of_nodup_map hd.positions output hi rfl))
      rw [if_neg hij, if_neg ht]
      rfl
  case drop => rfl
  case divert message field code j handling errors =>
    have hij : j ≠ i := by
      rintro rfl
      exact hd.errors j handling errors hmem
    rw [sentTo_singleton, if_neg hij]
    rfl

theorem deal_err (hd : o.Distinct) {h : ErrorHandling} (hi : o.errors = some (i, h))
    {tally u : Tally} {e : Entry} {os : List (Nat × Entry)}
    (hdeal : o.deal conduct tally e = some (u, os)) : sentTo i os = (conduct.err h e).toList := by
  have hnot : i ∉ o.outputs.map Prod.snd := hd.errors i h hi
  have hne : ∀ {t j}, (t, j) ∈ o.outputs → j ≠ i := by
    rintro t j hm rfl
    exact hnot (List.mem_map.mpr ⟨_, hm, rfl⟩)
  have hemits := emits hdeal
  unfold Conduct.err
  generalize conduct.verdict e = v at hemits
  cases hemits
  case copy out movement =>
    rw [sentTo_copy hd.positions, if_neg hnot]
    rfl
  case turn out t j output movement =>
    rw [sentTo_singleton, if_neg (hne output)]
    rfl
  case nowhere => rfl
  case send target out j output =>
    rw [sentTo_singleton, if_neg (hne output)]
    rfl
  case drop => rfl
  case divert message field code j handling errors =>
    rw [hi] at errors
    cases errors
    rw [sentTo_singleton, if_pos rfl]
    rfl

/-- **What an output gets** for rows that are all handled. -/
theorem sentTo_out (hd : o.Distinct) (hs : o.Settled conduct) {t : String}
    (hi : (t, i) ∈ o.outputs) {tally u : Tally} {feed : List Entry}
    (hr : reach (o.deal conduct) tally feed = some u) :
    sentTo i (play (o.deal conduct) tally feed) = feed.filterMap (conduct.out t) :=
  sentTo_play (fun _ _ _ _ h => deal_out hd hs hi h) hr

/-- **What the row set of failing rows gets** for rows that are all handled. -/
theorem sentTo_err (hd : o.Distinct) {h : ErrorHandling} (hi : o.errors = some (i, h))
    {tally u : Tally} {feed : List Entry} (hr : reach (o.deal conduct) tally feed = some u) :
    sentTo i (play (o.deal conduct) tally feed) = feed.filterMap (conduct.err h) :=
  sentTo_play (fun _ _ _ _ h => deal_err hd hi h) hr

end Outlet

end Rowflow
