import Rowflow.Proofs.Diversion.Outcome

/-!
# Rows and errors

A worker counts the rows that it diverts, and apart from them the errors that these rows stand for. What
the result of a run calls diverted is the sum of the errors. When all workers have reported, the sum of
the rows that they have counted is the number of rows in the error row sets, and the number called
diverted is that one if and only if every row stands for one error (`Waiting.headcount`). A transform
that diverts one row for three errors makes it three (`Waiting.exists_overcounted`).
-/

namespace Rowflow

variable {σ : Type} {p : Pipeline}

/-- The number of rows that row sets have accepted. -/
def Shared.rows (s : Shared) (is : List Nat) : Nat := (is.map fun i => (s.accepted i).length).sum

theorem Shared.rows_eq_total (s : Shared) (is : List Nat) : s.rows is = s.total (fun _ => 1) is := by
  unfold rows total
  rw [List.map_const', List.sum_replicate_nat, List.length_flatMap, Nat.mul_one]

/-- A list of positive numbers has its length as the sum if and only if all of them are one. -/
theorem sum_eq_length_iff {l : List Nat} (hpos : ∀ n ∈ l, 0 < n) :
    l.length ≤ l.sum ∧ (l.sum = l.length ↔ ∀ n ∈ l, n = 1) := by
  induction l with
  | nil => simp
  | cons n rest ih =>
    obtain ⟨hle, hiff⟩ := ih fun m hm => hpos m (List.mem_cons_of_mem n hm)
    have hn := hpos n List.mem_cons_self
    rw [List.sum_cons, List.length_cons, List.forall_mem_cons, ← hiff]
    omega

/-- Rows stand for at least as many errors, and for as many if and only if each stands for one. -/
theorem Shared.Weighty.rows {s : Shared} (h : s.Weighty p) :
    s.rows p.errorSets ≤ s.weight p.errorSets ∧
      (s.weight p.errorSets = s.rows p.errorSets ↔
        ∀ i ∈ p.errorSets, ∀ e ∈ s.accepted i, e.weight = 1) := by
  obtain ⟨hle, hiff⟩ := sum_eq_length_iff
    (l := (p.errorSets.flatMap s.accepted).map Entry.weight) fun n hn => by
      obtain ⟨e, he, rfl⟩ := List.mem_map.mp hn
      obtain ⟨i, hi, he⟩ := List.mem_flatMap.mp he
      exact h i hi e he
  have hrows : s.rows p.errorSets = ((p.errorSets.flatMap s.accepted).map Entry.weight).length := by
    rw [List.length_map, List.length_flatMap]
    rfl
  rw [hrows]
  refine ⟨hle, hiff.trans ⟨fun hall i hi e he => ?_, fun hall n hn => ?_⟩⟩
  · exact hall _ (List.mem_map.mpr ⟨e, List.mem_flatMap.mpr ⟨i, hi, he⟩, rfl⟩)
  · obtain ⟨e, he, rfl⟩ := List.mem_map.mp hn
    obtain ⟨i, hi, he⟩ := List.mem_flatMap.mp he
    exact hall i hi e he

namespace Waiting

variable {w : Waiting σ}

/-- What the result of a run says of the rows that were diverted. -/
structure Counted (p : Pipeline) (w : Waiting σ) : Prop where
  /-- The rows in the reports are those in the error row sets. -/
  rejected : (w.reports.map (·.counters.rejected.toNat)).sum = w.course.shared.rows p.errorSets
  /-- The result has all reports. There is none only if their errors do not fit into a word. -/
  result : RunResult.Carries w.reports w.result
  errors : errorsIn w.reports = w.course.shared.weight p.errorSets
  /-- What is called diverted are the errors that the rows in the error row sets stand for. They are as
  many as the rows if and only if each row stands for one. -/
  diverted : ∀ r, w.result = .ok r → ∃ n, r.diverted = .ok n ∧
    n.toNat = w.course.shared.weight p.errorSets ∧
    (n.toNat = w.course.shared.rows p.errorSets ↔
      ∀ i ∈ p.errorSets, ∀ e ∈ w.course.shared.accepted i, e.weight = 1)

theorem Sound.counted (h : w.Sound p) (heven : w.course.Even p)
    (hall : w.vigil.collection.outstanding = [])
    (hquiet : w.course.shared.stopped ≠ true ∨ w.course.Calm) : w.Counted p := by
  obtain ⟨hagree, hreports⟩ := h.agree heven hall hquiet
  have herrors := h.errorsIn_reports heven hall hquiet
  obtain ⟨-, hsingle⟩ := heven.weighty.rows
  have hrows : w.course.world.tally .rows = w.course.shared.rows p.errorSets :=
    (hagree .rows).symm.trans (Shared.rows_eq_total _ _).symm
  refine ⟨(hreports .rows).trans hrows, w.carries_result, herrors, fun r hr => ?_⟩
  obtain ⟨n, hn, hsum⟩ := (w.sums_of_result hr).diverted
  rw [herrors] at hsum
  exact ⟨n, hn, hsum, hsum ▸ hsingle⟩

/-- **Rows and errors.** Whatever the transforms do, and however their steps come together: when all
workers have reported, and the run is not stopped or none of them has broken down over a diverted row,
the rows that the workers have counted are those in the error row sets, and what the result calls
diverted are the errors that these rows stand for. -/
theorem headcount [Transform σ] {registry : Registry σ} {o : Orchestrator σ} (hooks : Hooks)
    (bindings : Table String) (hnew : Orchestrator.new p registry = .ok o) {events : List Event}
    (hfirst : ∀ e ∈ events, e ≠ .receive)
    (hr : ((Course.begin o hooks bindings).run events).Running) {moves : List Move}
    (hall : ((begin ((Course.begin o hooks bindings).run events)).run
      moves).vigil.collection.outstanding = [])
    (hquiet :
      ((begin ((Course.begin o hooks bindings).run events)).run moves).course.shared.stopped ≠ true ∨
        ((begin ((Course.begin o hooks bindings).run events)).run moves).course.Calm) :
    ((begin ((Course.begin o hooks bindings).run events)).run moves).Counted p := by
  have hp := Pipeline.wellFormed_of_validationErrors (Orchestrator.new_ok hnew).1
  have heven := of_waiting hnew (World.Tallied.early hp o.transforms)
    (fun c _ hl hw => hl.even hp hw) (fun c c' d h hc => h.even hc)
    (fun c c' i x h hc => h.even hp hc) events hr moves
  exact (sound hnew hfirst hr moves).counted heven hall hquiet

/-! ### One row, three errors -/

namespace Threefold

/-- A scripted transform that handles errors, and one that takes the failing rows. -/
def pipeline : Pipeline where
  transforms := [
    { id := "a", type := "script", errorHandling := some { target := "r" } },
    { id := "r", type := "dummy" }]

/-- The scripted transform diverts a row for three errors. -/
def orchestrator : Orchestrator (Builtin ⊕ Scripted) where
  pipeline := pipeline
  transforms :=
    ((Registry.withScripts (Course.Diverting.scripts [3])).resolve pipeline).toOption.getD .empty
  world := { shared := { pipeline := pipeline.name, poll := 50000 } }
  built := .ofList (pipeline.ids.map (·, 1))

theorem new_ok :
    Orchestrator.new pipeline (.withScripts (Course.Diverting.scripts [3])) = .ok orchestrator := rfl

/-- The run when its workers have been started. -/
def started : Course (Builtin ⊕ Scripted) :=
  (Course.begin orchestrator Hooks.none .empty).run Failing.events

theorem running : started.Running := ⟨_, rfl⟩

/-- The end of the run. -/
def waiting : Waiting (Builtin ⊕ Scripted) := (begin started).run (Halves.moves [0, 1])

theorem reported : waiting.vigil.collection.outstanding = [] := by decide +kernel

theorem reports_eq : waiting.reports =
    [⟨⟨"a", 0⟩, .done, { rejected := 1, errors := 3 }, none⟩,
      ⟨⟨"r", 0⟩, .done, { read := 1, written := 1 }, none⟩] := by
  decide +kernel

theorem unstopped : waiting.course.shared.stopped = false := by decide +kernel

end Threefold

/-- One row has been diverted and counted, for three errors. -/
theorem headcount_threefold : Threefold.waiting.vigil.collection.outstanding = [] ∧
    Threefold.waiting.course.shared.stopped ≠ true ∧
    Threefold.waiting.course.shared.rows Threefold.pipeline.errorSets = 1 ∧
    errorsIn Threefold.waiting.reports = 3 ∧ Threefold.waiting.Counted Threefold.pipeline :=
  ⟨Threefold.reported, by rw [Threefold.unstopped]; decide, by decide +kernel,
    by rw [Threefold.reports_eq]; rfl,
    headcount Hooks.none .empty Threefold.new_ok Failing.unreceived Threefold.running
      (by decide +kernel) (Or.inl (by decide +kernel))⟩

/-- It is not so that in a run which is not stopped as many rows are called diverted as the error row
sets have accepted. -/
theorem exists_overcounted : ¬ ∀ (p : Pipeline) (scripts : Table Script)
    (o : Orchestrator (Builtin ⊕ Scripted)) (hooks : Hooks) (bindings : Table String)
    (events : List Event) (moves : List Move) (w : Waiting (Builtin ⊕ Scripted)) (r : RunResult)
    (n : UInt64),
    Orchestrator.new p (.withScripts scripts) = .ok o → (∀ e ∈ events, e ≠ .receive) →
    ((Course.begin o hooks bindings).run events).Running →
    w = (begin ((Course.begin o hooks bindings).run events)).run moves →
    w.vigil.collection.outstanding = [] → w.result = .ok r → r.status ≠ .stopped →
    r.diverted = .ok n → n.toNat = w.course.shared.rows p.errorSets := by
  intro h
  obtain ⟨r, hr, hreports⟩ := Threefold.waiting.carries_result.exists_ok
    (by rw [Threefold.reports_eq]; decide)
  have hsums := Threefold.waiting.sums_of_result hr
  have hunstopped : r.status ≠ .stopped := fun hs => by
    have hstopped := hsums.stopped.mp hs
    rw [Threefold.unstopped, Threefold.reports_eq] at hstopped
    revert hstopped
    decide
  obtain ⟨n, hn, hsum⟩ := hsums.diverted
  have heq := h _ _ _ Hooks.none .empty _ _ Threefold.waiting r n Threefold.new_ok Failing.unreceived
    Threefold.running rfl Threefold.reported hr hunstopped hn
  rw [hsum, Threefold.reports_eq] at heq
  revert heq
  decide +kernel

end Waiting

end Rowflow
